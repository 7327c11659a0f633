import SsnIpc.Lib.BucketMap
import SsnIpc.Lib.ByteMem
import Mathlib.Data.Finset.Card

/-!
# The hash table

`src/util/ssn_hash_table.c`: chains of nodes, and a number of nodes kept beside them. The operations
with string keys copy the key into the node, and find it by its contents.

A table that is only used with string keys (`StrWf`) has each key in the bucket it hashes to, no key
twice, and its size is the number of its keys. What an operation does to such a table is said once
(`setStr_eq`, `removeStr_eq`), in terms of the tables of `Buckets`.

What a table is for is said by a finite map with the same operations (`mapStep`).
-/

namespace Ssn

open ByteMem

/-- `hash_node_t`. -/
structure HashNode (ν : Type*) where
  key : UInt64
  strKey : Option Bytes
  value : ν

/-- `struct ssn_hash_table`. -/
structure HashTable (ν : Type*) where
  buckets : Nat → List (HashNode ν)
  capacity : Nat
  size : UInt64
  capacity_pos : 0 < capacity

/-- Which allocations of `ssn_hash_table_set_str` succeed: that of the node, and the copy of the
key. -/
structure NodeMem where
  node : Bool
  strKey : Bool

/-- `ssn_hash_string`. A `char` is signed and is extended to an `int` before it is added. -/
def hashString (str : Bytes) : UInt32 :=
  str.foldl (fun hash c => (hash <<< 5) + hash + c.toInt8.toInt32.toUInt32) 5381

/-- `str_hash_index`. -/
def strHashIndex (key : Bytes) (capacity : Nat) : Nat := (hashString key).toNat % capacity

/-- `default_capacity`: the first of 16, 32, ... that is not less. -/
def defaultCapacity (capacity : Nat) : Nat :=
  (List.range 60).foldl (fun c _ => if c < capacity then c * 2 else c) 16

theorem defaultCapacity_pos (capacity : Nat) : 0 < defaultCapacity capacity := by
  suffices h : ∀ (l : List Nat) (c : Nat), 0 < c →
      0 < l.foldl (fun c _ => if c < capacity then c * 2 else c) c from h _ _ (by decide)
  intro l
  induction l with
  | nil => exact fun c hc => hc
  | cons _ l ih =>
    intro c hc
    apply ih
    dsimp only
    split_ifs <;> omega

/-- The loop of `default_capacity` as it computes, for at most `fuel` rounds. -/
def capacityLoop (capacity : UInt64) : Nat → UInt64 → Option UInt64
  | 0, _ => none
  | fuel + 1, c => if c < capacity then capacityLoop capacity fuel (c * 2) else some c

/-- Up to $2^{63}$ the loop ends, with the capacity above. -/
theorem capacityLoop_eq {capacity : UInt64} (h : capacity.toNat ≤ 2 ^ 63) (l : List Nat)
    (c : UInt64) (hc : capacity.toNat ≤ c.toNat * 2 ^ l.length) :
    ∃ c', capacityLoop capacity (l.length + 1) c = some c' ∧
      c'.toNat = l.foldl (fun c _ => if c < capacity.toNat then c * 2 else c) c.toNat := by
  induction l generalizing c with
  | nil =>
    have hlt : ¬ c < capacity := by
      rw [UInt64.lt_iff_toNat_lt]
      simpa using hc
    exact ⟨c, if_neg hlt, rfl⟩
  | cons i l ih =>
    rw [List.length_cons, capacityLoop, List.foldl_cons]
    by_cases hlt : c < capacity
    · have hlt' := UInt64.lt_iff_toNat_lt.1 hlt
      have hdouble : (c * 2).toNat = c.toNat * 2 := by
        rw [UInt64.toNat_mul]
        exact Nat.mod_eq_of_lt (by simp; omega)
      rw [if_pos hlt, if_pos hlt', ← hdouble]
      refine ih (c * 2) ?_
      rwa [hdouble, Nat.mul_assoc, ← Nat.pow_succ']
    · have hlt' : ¬ c.toNat < capacity.toNat := fun h => hlt (UInt64.lt_iff_toNat_lt.2 h)
      have hfix : l.foldl (fun c _ => if c < capacity.toNat then c * 2 else c) c.toNat =
          c.toNat := by
        clear ih hc
        induction l with
        | nil => rfl
        | cons j l ih => rwa [List.foldl_cons, if_neg hlt']
      rw [if_neg hlt, if_neg hlt', hfix]
      exact ⟨c, rfl, rfl⟩

/-- Above that the doubling comes to 0 and does not end: no table is created. -/
theorem capacityLoop_eq_none {capacity : UInt64} (h : 2 ^ 63 < capacity.toNat) (fuel : Nat)
    (c : UInt64) (hc : c = 0 ∨ ∃ j ≤ 63, c.toNat = 2 ^ j) :
    capacityLoop capacity fuel c = none := by
  induction fuel generalizing c with
  | zero => rfl
  | succ fuel ih =>
    have hlt : c < capacity := by
      rw [UInt64.lt_iff_toNat_lt]
      rcases hc with rfl | ⟨j, hj, hpow⟩
      · exact Nat.lt_of_le_of_lt (Nat.zero_le _) h
      · rw [hpow]
        exact Nat.lt_of_le_of_lt (Nat.pow_le_pow_right (by decide) hj) h
    rw [capacityLoop, if_pos hlt]
    apply ih
    rcases hc with rfl | ⟨j, hj, hpow⟩
    · exact .inl rfl
    · have hdouble : (c * 2).toNat = 2 ^ (j + 1) % 2 ^ 64 := by
        rw [UInt64.toNat_mul, hpow, Nat.pow_succ]
        rfl
      rcases Nat.lt_or_ge j 63 with hlow | hhigh
      · refine .inr ⟨j + 1, hlow, ?_⟩
        rw [hdouble, Nat.mod_eq_of_lt (Nat.pow_lt_pow_right (by decide) (by omega))]
      · obtain rfl : j = 63 := by omega
        exact .inl (UInt64.toNat_inj.1 (by rw [hdouble]; rfl))

/-- **When a table is created:** the loop ends exactly for capacities up to $2^{63}$, and then with
the capacity that the model takes. -/
theorem capacityLoop_returns_iff (capacity : UInt64) :
    (∃ fuel c, capacityLoop capacity fuel 16 = some c ∧
        c.toNat = defaultCapacity capacity.toNat) ↔ capacity.toNat ≤ 2 ^ 63 := by
  constructor
  · rintro ⟨fuel, c, hloop, -⟩
    by_contra hlarge
    rw [capacityLoop_eq_none (Nat.not_le.1 hlarge) fuel 16 (.inr ⟨4, by decide, rfl⟩)] at hloop
    cases hloop
  · intro h
    exact ⟨61, capacityLoop_eq h (List.range 60) 16 (h.trans (by decide))⟩

/-! ## What a table is for -/

/-- The operations on a table with keys in `ι`. -/
inductive TableOp (ι ν : Type*)
  | set (key : ι) (value : ν)
  | get (key : ι)
  | remove (key : ι)
  | size

/-- What an operation answers: whether it was done, what was found, or a number. -/
inductive TableAnswer (ν : Type*)
  | done (ok : Bool)
  | found (value : Option ν)
  | size (n : UInt64)

/-- An operation on a finite map. -/
def mapStep {ι ν : Type*} [DecidableEq ι] (m : Finmap fun _ : ι => ν) :
    TableOp ι ν → (Finmap fun _ : ι => ν) × TableAnswer ν
  | .set key value => (m.insert key value, .done true)
  | .get key => (m, .found (m.lookup key))
  | .remove key => (m.erase key, .done (m.lookup key).isSome)
  | .size => (m, .size (UInt64.ofNat m.keys.card))

namespace HashTable

variable {ν : Type*}

/-- `ssn_hash_table_create`. -/
def create (capacity : Nat) : HashTable ν :=
  ⟨fun _ => [], defaultCapacity capacity, 0, defaultCapacity_pos capacity⟩

def setBucket (t : HashTable ν) (index : Nat) (nodes : List (HashNode ν)) : HashTable ν :=
  { t with buckets := Function.update t.buckets index nodes }

/-- `ssn_hash_table_set_str`. -/
def setStr (t : HashTable ν) (key : Bytes) (value : ν) (mem : NodeMem) : HashTable ν × Bool :=
  let index := strHashIndex key t.capacity
  let update (n : HashNode ν) := { n with value }
  match Buckets.updateFirst HashNode.strKey (some key) update (t.buckets index) with
  | some nodes => (t.setBucket index nodes, true)
  | none =>
    if mem.node = true ∧ mem.strKey = true then
      ({ t.setBucket index (⟨0, some key, value⟩ :: t.buckets index) with size := t.size + 1 },
        true)
    else (t, false)

/-- `ssn_hash_table_get_str`. -/
def getStr (t : HashTable ν) (key : Bytes) : Option ν :=
  ((t.buckets (strHashIndex key t.capacity)).find? fun n => n.strKey = some key).map HashNode.value

/-- `ssn_hash_table_remove_str`. -/
def removeStr (t : HashTable ν) (key : Bytes) : HashTable ν × Bool :=
  let index := strHashIndex key t.capacity
  match Buckets.removeFirst HashNode.strKey (some key) (t.buckets index) with
  | some nodes => ({ t.setBucket index nodes with size := t.size - 1 }, true)
  | none => (t, false)

/-! ## Tables with string keys -/

def strBucket (capacity : Nat) (key : Option Bytes) : Nat :=
  key.elim 0 fun key => strHashIndex key capacity

/-- The keys of a table, bucket by bucket. -/
def names (t : HashTable ν) : List Bytes :=
  (Buckets.toList t.capacity t.buckets).filterMap HashNode.strKey

/-- A table with string keys: they hang where they hash to, no two of them are equal, and the size
is their number. -/
structure StrWf (t : HashTable ν) : Prop where
  wf : Buckets.Wf HashNode.strKey (strBucket t.capacity) t.buckets
  strKey : ∀ i, ∀ n ∈ t.buckets i, n.strKey.isSome
  size : t.size = UInt64.ofNat (Buckets.toList t.capacity t.buckets).length

variable {t : HashTable ν} {key : Bytes}

theorem strBucket_lt (t : HashTable ν) (key : Option Bytes) :
    strBucket t.capacity key < t.capacity := by
  cases key with
  | none => exact t.capacity_pos
  | some key => exact Nat.mod_lt _ t.capacity_pos

theorem strWf_create (capacity : Nat) : (create capacity : HashTable ν).StrWf where
  wf := ⟨fun _ _ h => absurd h List.not_mem_nil, fun _ => List.nodup_nil⟩
  strKey _ _ h := absurd h List.not_mem_nil
  size := by simp [create, Buckets.toList]

theorem getStr_eq_find (t : HashTable ν) (key : Bytes) :
    t.getStr key =
      (Buckets.find HashNode.strKey (strBucket t.capacity) t.buckets (some key)).map
        HashNode.value := rfl

theorem isSome_getStr : (t.getStr key).isSome ↔
    some key ∈ (t.buckets (strHashIndex key t.capacity)).map HashNode.strKey := by
  rw [getStr_eq_find, Option.isSome_map, Buckets.isSome_find]
  rfl

theorem StrWf.setStr_eq (h : t.StrWf) (key : Bytes) (value : ν) (mem : NodeMem) :
    t.setStr key value mem =
      if (t.getStr key).isSome then
        ({ t with
            buckets := Buckets.modify HashNode.strKey (strBucket t.capacity) t.buckets (some key)
              fun n => { n with value } }, true)
      else if mem.node = true ∧ mem.strKey = true then
        ({ t with
            buckets := Buckets.insert HashNode.strKey (strBucket t.capacity) t.buckets
              ⟨0, some key, value⟩
            size := t.size + 1 }, true)
      else (t, false) := by
  unfold setStr
  simp only [Buckets.updateFirst_eq (h.wf.nodup _), ← isSome_getStr]
  by_cases hk : (t.getStr key).isSome
  · simp only [hk, if_true]
    rfl
  · simp only [hk]
    rfl

theorem StrWf.removeStr_eq (h : t.StrWf) (key : Bytes) :
    t.removeStr key =
      if (t.getStr key).isSome then
        ({ t with
            buckets := Buckets.erase HashNode.strKey (strBucket t.capacity) t.buckets (some key)
            size := t.size - 1 }, true)
      else (t, false) := by
  unfold removeStr
  simp only [Buckets.removeFirst_eq (h.wf.nodup _), ← isSome_getStr]
  by_cases hk : (t.getStr key).isSome
  · simp only [hk, if_true]
    rfl
  · simp only [hk]
    rfl

theorem isSome_find_iff : (Buckets.find HashNode.strKey (strBucket t.capacity) t.buckets
    (some key)).isSome ↔ (t.getStr key).isSome := by
  rw [getStr_eq_find, Option.isSome_map]

theorem StrWf.modify (h : t.StrWf) (key : Bytes) (value : ν) :
    StrWf { t with
      buckets := Buckets.modify HashNode.strKey (strBucket t.capacity) t.buckets (some key)
        fun n => { n with value } } := by
  have hkey (n : HashNode ν) : HashNode.strKey { n with value } = n.strKey := rfl
  refine ⟨h.wf.modify hkey, fun i n hn => ?_, ?_⟩
  · have hn' : n.strKey ∈ Buckets.keys HashNode.strKey t.buckets i := by
      rw [← Buckets.keys_modify hkey (some key)]
      exact List.mem_map_of_mem hn
    obtain ⟨m, hm, hkeys⟩ := List.mem_map.1 hn'
    rw [← hkeys]
    exact h.strKey i m hm
  · rw [h.size, ← List.length_map (f := HashNode.strKey), ← Buckets.toList_keys]
    conv_rhs => rw [← List.length_map (f := HashNode.strKey), ← Buckets.toList_keys,
      Buckets.keys_modify hkey]

theorem StrWf.insert (h : t.StrWf) (hnew : ¬ (t.getStr key).isSome = true) (value : ν) :
    StrWf { t with
      buckets := Buckets.insert HashNode.strKey (strBucket t.capacity) t.buckets
        ⟨0, some key, value⟩
      size := t.size + 1 } := by
  have hnone : Buckets.find HashNode.strKey (strBucket t.capacity) t.buckets (some key) = none := by
    rwa [← isSome_find_iff, Bool.not_eq_true, Option.isSome_eq_false_iff,
      Option.isNone_iff_eq_none] at hnew
  refine ⟨Buckets.Wf.insert h.wf hnone, fun i n hn => ?_, ?_⟩
  · by_cases hi : i = strBucket t.capacity (some key)
    · subst hi
      simp only [Buckets.insert, Function.update_self, List.mem_cons] at hn
      rcases hn with rfl | hn
      · rfl
      · exact h.strKey _ n hn
    · simp only [Buckets.insert, Function.update_of_ne hi] at hn
      exact h.strKey i n hn
  · have hperm : (Buckets.toList t.capacity (Buckets.insert HashNode.strKey
        (strBucket t.capacity) t.buckets ⟨0, some key, value⟩)).Perm
        (⟨0, some key, value⟩ :: Buckets.toList t.capacity t.buckets) :=
      Buckets.perm_toList_insert (strBucket_lt t (some key))
    rw [hperm.length_eq, List.length_cons, UInt64.ofNat_add, ← h.size]
    rfl

theorem StrWf.setStr (h : t.StrWf) (key : Bytes) (value : ν) (mem : NodeMem) :
    (t.setStr key value mem).1.StrWf := by
  rw [h.setStr_eq]
  split_ifs with hold
  · exact h.modify key value
  · exact h.insert hold value
  · exact h

theorem StrWf.removeStr (h : t.StrWf) (key : Bytes) : (t.removeStr key).1.StrWf := by
  rw [h.removeStr_eq]
  split_ifs with hold
  · refine ⟨h.wf.erase, fun i n hn => ?_, ?_⟩
    · simp only [h.wf.erase_eq_filter] at hn
      exact h.strKey i n (List.mem_filter.1 hn).1
    · have hlen := h.wf.length_toList_erase (strBucket_lt t) (isSome_find_iff.2 hold)
      rw [h.size, ← hlen, UInt64.ofNat_add]
      exact UInt64.add_sub_cancel _ _
  · exact h

theorem StrWf.getStr_setStr (h : t.StrWf) {value : ν} {mem : NodeMem}
    (hok : (t.setStr key value mem).2 = true) (other : Bytes) :
    (t.setStr key value mem).1.getStr other =
      if other = key then some value else t.getStr other := by
  rw [getStr_eq_find, getStr_eq_find]
  rw [h.setStr_eq] at hok ⊢
  split_ifs at hok ⊢ with hold hkey hmem hkey
  · subst hkey
    obtain ⟨n, hn⟩ := Option.isSome_iff_exists.1 (isSome_find_iff.2 hold)
    dsimp only
    rw [Buckets.find_modify (fun _ => by rfl), if_pos rfl, hn]
    rfl
  · rw [Buckets.find_modify (fun _ => by rfl), if_neg (Option.some_injective _ |>.ne hkey)]
  · rw [Buckets.find_insert, if_pos (congrArg some hkey)]
    rfl
  · rw [Buckets.find_insert, if_neg (Option.some_injective _ |>.ne hkey)]

theorem StrWf.getStr_removeStr (h : t.StrWf) (other : Bytes) :
    (t.removeStr key).1.getStr other = if other = key then none else t.getStr other := by
  rw [h.removeStr_eq]
  by_cases hkey : other = key
  · subst hkey
    rw [if_pos rfl]
    split_ifs with hold
    · rw [getStr_eq_find, Buckets.find_erase, if_pos rfl]
      rfl
    · rwa [Option.not_isSome_iff_eq_none] at hold
  · rw [if_neg hkey]
    split_ifs with hold
    · rw [getStr_eq_find, Buckets.find_erase, if_neg (Option.some_injective _ |>.ne hkey)]
      rfl
    · rfl

/-! ## The size is the number of the keys -/

theorem StrWf.map_some_names (h : t.StrWf) :
    t.names.map some = (Buckets.toList t.capacity t.buckets).map HashNode.strKey := by
  unfold names
  have hall : ∀ n ∈ Buckets.toList t.capacity t.buckets, n.strKey.isSome := by
    intro n hn
    obtain ⟨i, -, hi⟩ := Buckets.mem_toList.1 hn
    exact h.strKey i n hi
  generalize Buckets.toList t.capacity t.buckets = l at hall
  induction l with
  | nil => rfl
  | cons n l ih =>
    rw [List.forall_mem_cons] at hall
    obtain ⟨key, hkey⟩ := Option.isSome_iff_exists.1 hall.1
    rw [List.filterMap_cons_some hkey, List.map_cons, List.map_cons, ih hall.2, hkey]

theorem StrWf.nodup_names (h : t.StrWf) : t.names.Nodup := by
  apply List.Nodup.of_map some
  rw [h.map_some_names]
  exact h.wf.nodup_toList

theorem StrWf.mem_names (h : t.StrWf) : key ∈ t.names ↔ (t.getStr key).isSome := by
  rw [← isSome_find_iff, Option.isSome_iff_exists,
    ← List.mem_map_of_injective (Option.some_injective _), h.map_some_names, List.mem_map]
  simp only [h.wf.find_eq_some (strBucket_lt t)]

theorem StrWf.size_eq_card (h : t.StrWf) : t.size = UInt64.ofNat t.names.toFinset.card := by
  have hlen := congrArg List.length h.map_some_names
  rw [List.length_map, List.length_map] at hlen
  rw [h.size, List.toFinset_card_of_nodup h.nodup_names, hlen]

end HashTable

end Ssn
