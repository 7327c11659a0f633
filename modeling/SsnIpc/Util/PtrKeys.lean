import SsnIpc.Lib.Runs
import SsnIpc.Util.HashTable

/-!
# Tables with pointer keys

`ssn_hash_table_set` doubles the table when it gets full, and puts each node into a new bucket: by
the hash of its string if it has one, and by that of its pointer key otherwise. But it does not
assign the field `str_key` of the nodes it makes itself, so what the field has is what the memory
had before.

**Theorem (`ptrKeys_iff`).** Whenever the table may double, all operations answer as those of a
finite map do, the size is the number of keys, and no key is there twice, exactly in the runs in
which every doubling finds in the field of each node a NULL, or a string that hashes like the key.

Otherwise the key is lost: `doubling_loses_keys` is a run with the load factor of the source.

The field is taken to be NULL or to point to a string. If it points to no readable memory at all,
the doubling ends the program. Capacities are natural numbers: memory ends before they overflow.
-/

namespace Ssn

open ByteMem

/-- `hash_uint32`. -/
def hashUint32 (key : UInt32) : UInt32 :=
  let key := ((key >>> 16) ^^^ key) * 0x45d9f3b
  let key := ((key >>> 16) ^^^ key) * 0x45d9f3b
  (key >>> 16) ^^^ key

/-- The keys: pointers that are not NULL. -/
abbrev PtrKey := {key : UInt64 // key ≠ 0}

/-- The calls with pointer keys. `unset` is what the memory of a new node has in `str_key`. -/
inductive PtrOp (ν : Type*)
  | set (key : PtrKey) (value : ν) (unset : Option Bytes)
  | get (key : PtrKey)
  | remove (key : PtrKey)
  | size

/-- The operation that a call is. -/
def PtrOp.op {ν : Type*} : PtrOp ν → TableOp PtrKey ν
  | .set key value _ => .set key value
  | .get key => .get key
  | .remove key => .remove key
  | .size => .size

namespace HashTable

variable {ν : Type*}

/-- The bucket of a pointer key. -/
def ptrBucket (capacity : Nat) (key : UInt64) : Nat :=
  (hashUint32 key.toUInt32).toNat % capacity

/-- The bucket that a doubling puts a node into. -/
def rehashIndex (capacity : Nat) (n : HashNode ν) : Nat :=
  match n.strKey with
  | some str => strHashIndex str capacity
  | none => ptrBucket capacity n.key

/-- The doubling in `ssn_hash_table_set`. -/
def double (t : HashTable ν) : HashTable ν where
  buckets := Buckets.scatter (rehashIndex (t.capacity * 2)) (Buckets.toList t.capacity t.buckets)
  capacity := t.capacity * 2
  size := t.size
  capacity_pos := Nat.mul_pos t.capacity_pos Nat.two_pos

/-- The table that `ssn_hash_table_set` goes on with; `grows` tells when it doubles. -/
def resized (grows : UInt64 → Nat → Bool) (t : HashTable ν) : HashTable ν :=
  if grows t.size t.capacity then t.double else t

/-- The rest of `ssn_hash_table_set`. -/
def put (t : HashTable ν) (key : UInt64) (value : ν) (unset : Option Bytes) : HashTable ν × Bool :=
  let index := ptrBucket t.capacity key
  let update (n : HashNode ν) := { n with value }
  match Buckets.updateFirst HashNode.key key update (t.buckets index) with
  | some nodes => (t.setBucket index nodes, true)
  | none =>
    ({ t.setBucket index (⟨key, unset, value⟩ :: t.buckets index) with size := t.size + 1 }, true)

/-- `ssn_hash_table_set`, with memory for what it allocates. -/
def set (grows : UInt64 → Nat → Bool) (t : HashTable ν) (key : UInt64) (value : ν)
    (unset : Option Bytes) : HashTable ν × Bool :=
  if key = 0 then (t, false) else (t.resized grows).put key value unset

/-- `ssn_hash_table_get`. -/
def get (t : HashTable ν) (key : UInt64) : Option ν :=
  if key = 0 then none
  else ((t.buckets (ptrBucket t.capacity key)).find? fun n => n.key = key).map HashNode.value

/-- `ssn_hash_table_remove`. -/
def remove (t : HashTable ν) (key : UInt64) : HashTable ν × Bool :=
  if key = 0 then (t, false)
  else
    let index := ptrBucket t.capacity key
    match Buckets.removeFirst HashNode.key key (t.buckets index) with
    | some nodes => ({ t.setBucket index nodes with size := t.size - 1 }, true)
    | none => (t, false)

def ptrStep (grows : UInt64 → Nat → Bool) (t : HashTable ν) : PtrOp ν → HashTable ν × TableAnswer ν
  | .set key value unset =>
    let (t, ok) := t.set grows key value unset
    (t, .done ok)
  | .get key => (t, .found (t.get key))
  | .remove key =>
    let (t, ok) := t.remove key
    (t, .done ok)
  | .size => (t, .size t.size)

/-- The same call on a table and on a map. -/
def bothStep (grows : UInt64 → Nat → Bool) (p : HashTable ν × Finmap fun _ : PtrKey => ν)
    (op : PtrOp ν) : HashTable ν × Finmap fun _ : PtrKey => ν :=
  ((p.1.ptrStep grows op).1, (mapStep p.2 op.op).1)

/-- The table is as good as the map: it answers alike, its size is the number of keys, and it has no
key twice. -/
structure Agrees (grows : UInt64 → Nat → Bool) (p : HashTable ν × Finmap fun _ : PtrKey => ν) :
    Prop where
  answer : ∀ op, (p.1.ptrStep grows op).2 = (mapStep p.2 op.op).2
  size : p.1.size.toNat = p.2.keys.card
  nodup : ((Buckets.toList p.1.capacity p.1.buckets).map HashNode.key).Nodup

/-- If the call doubles the table, it puts each node where its key hashes to. -/
def Rehashes (grows : UInt64 → Nat → Bool) (p : HashTable ν × Finmap fun _ : PtrKey => ν) :
    PtrOp ν → Prop
  | .set .. => grows p.1.size p.1.capacity = true →
      ∀ n ∈ Buckets.toList p.1.capacity p.1.buckets,
        rehashIndex (p.1.capacity * 2) n = ptrBucket (p.1.capacity * 2) n.key
  | _ => True

variable {grows : UInt64 → Nat → Bool} {t : HashTable ν} {m : Finmap fun _ : PtrKey => ν}

/-! ## Calls on the buckets -/

theorem ptrBucket_lt (t : HashTable ν) (key : UInt64) : ptrBucket t.capacity key < t.capacity :=
  Nat.mod_lt _ t.capacity_pos

theorem get_eq_find (t : HashTable ν) (key : PtrKey) :
    t.get key =
      (Buckets.find HashNode.key (ptrBucket t.capacity) t.buckets key).map HashNode.value :=
  if_neg key.2

theorem isSome_find (t : HashTable ν) (key : UInt64) :
    (Buckets.find HashNode.key (ptrBucket t.capacity) t.buckets key).isSome = true ↔
      key ∈ (t.buckets (ptrBucket t.capacity key)).map HashNode.key :=
  Buckets.isSome_find

theorem put_snd (t : HashTable ν) (key : UInt64) (value : ν) (unset : Option Bytes) :
    (t.put key value unset).2 = true := by
  unfold put
  dsimp only
  split <;> rfl

theorem put_eq (h : ∀ i, ((t.buckets i).map HashNode.key).Nodup) (key : UInt64) (value : ν)
    (unset : Option Bytes) :
    t.put key value unset =
      if (Buckets.find HashNode.key (ptrBucket t.capacity) t.buckets key).isSome then
        ({ t with
            buckets := Buckets.modify HashNode.key (ptrBucket t.capacity) t.buckets key
              fun n => { n with value } }, true)
      else
        ({ t with
            buckets := Buckets.insert HashNode.key (ptrBucket t.capacity) t.buckets
              ⟨key, unset, value⟩
            size := t.size + 1 }, true) := by
  unfold put
  simp only [Buckets.updateFirst_eq (h _), ← isSome_find]
  by_cases hk : (Buckets.find HashNode.key (ptrBucket t.capacity) t.buckets key).isSome = true
  · simp only [hk, if_true]
    rfl
  · simp only [hk]
    rfl

theorem size_put (h : ∀ i, ((t.buckets i).map HashNode.key).Nodup) {key : UInt64}
    (hnone : Buckets.find HashNode.key (ptrBucket t.capacity) t.buckets key = none) (value : ν)
    (unset : Option Bytes) : (t.put key value unset).1.size = t.size + 1 := by
  rw [put_eq h, hnone]
  rfl

theorem get_put_of_ne (h : ∀ i, ((t.buckets i).map HashNode.key).Nodup) {key other : PtrKey}
    (hne : other ≠ key) (value : ν) (unset : Option Bytes) :
    (t.put key value unset).1.get other = t.get other := by
  have hval : other.1 ≠ key.1 := fun heq => hne (Subtype.ext heq)
  rw [put_eq h, get_eq_find, get_eq_find]
  split
  · dsimp only
    rw [Buckets.find_modify, if_neg hval]
    intro n
    rfl
  · dsimp only
    rw [Buckets.find_insert, if_neg hval]

theorem remove_eq (h : ∀ i, ((t.buckets i).map HashNode.key).Nodup) (key : PtrKey) :
    t.remove key =
      if (Buckets.find HashNode.key (ptrBucket t.capacity) t.buckets key).isSome then
        ({ t with
            buckets := Buckets.erase HashNode.key (ptrBucket t.capacity) t.buckets key
            size := t.size - 1 }, true)
      else (t, false) := by
  rw [remove, if_neg key.2]
  simp only [Buckets.removeFirst_eq (h _), ← isSome_find]
  by_cases hk : (Buckets.find HashNode.key (ptrBucket t.capacity) t.buckets key).isSome = true
  · simp only [hk, if_true]
    rfl
  · simp only [hk]
    rfl

/-! ## Maps -/

theorem card_lt (m : Finmap fun _ : PtrKey => ν) : m.keys.card < 2 ^ 64 := by
  have hinj : Function.Injective fun key : PtrKey => key.1.toNat :=
    fun _ _ h => Subtype.ext (UInt64.toNat_inj.1 h)
  have hsub : m.keys.map ⟨_, hinj⟩ ⊆ (Finset.range (2 ^ 64)).erase 0 := by
    intro x hx
    obtain ⟨key, -, rfl⟩ := Finset.mem_map.1 hx
    refine Finset.mem_erase.2 ⟨fun h0 => key.2 (UInt64.toNat_inj.1 h0), ?_⟩
    exact Finset.mem_range.2 key.1.toNat_lt
  have hle := Finset.card_le_card hsub
  rw [Finset.card_map, Finset.card_erase_of_mem (Finset.mem_range.2 (Nat.two_pow_pos 64)),
    Finset.card_range] at hle
  exact Nat.lt_of_le_of_lt hle (Nat.sub_lt (Nat.two_pow_pos 64) Nat.one_pos)

structure PtrHolds (t : HashTable ν) (m : Finmap fun _ : PtrKey => ν) : Prop where
  holds : Buckets.Holds HashNode.key HashNode.value (ptrBucket t.capacity) Subtype.val t.buckets m
  size : t.size.toNat = m.keys.card

theorem ptrHolds_create (capacity : Nat) : (create capacity : HashTable ν).PtrHolds ∅ :=
  ⟨Buckets.holds_empty, rfl⟩

theorem PtrHolds.get (h : t.PtrHolds m) (key : PtrKey) : t.get key = m.lookup key := by
  rw [get_eq_find, h.holds.lookup]

theorem PtrHolds.double (h : t.PtrHolds m)
    (hre : ∀ n ∈ Buckets.toList t.capacity t.buckets,
      rehashIndex (t.capacity * 2) n = ptrBucket (t.capacity * 2) n.key) : t.double.PtrHolds m :=
  ⟨h.holds.scatter (ptrBucket_lt t) (ptrBucket_lt t.double) hre, h.size⟩

theorem PtrHolds.put (h : t.PtrHolds m) (key : PtrKey) (value : ν) (unset : Option Bytes) :
    (t.put key value unset).1.PtrHolds (m.insert key value) := by
  rw [put_eq h.holds.wf.nodup, h.holds.isSome_find]
  by_cases hold : (m.lookup key).isSome = true
  · have hmem : key ∈ m.keys := Finmap.mem_keys.2 (Finmap.lookup_isSome.1 hold)
    rw [if_pos hold]
    refine ⟨h.holds.modify (f := fun n => { n with value }) Subtype.val_injective
      (fun _ => rfl) (fun _ => rfl) hold, ?_⟩
    rw [Buckets.keys_finmap_insert, Finset.insert_eq_self.2 hmem]
    exact h.size
  · have hmem : key ∉ m.keys := fun hmem => hold (Finmap.lookup_isSome.2 (Finmap.mem_keys.1 hmem))
    have hcard : (m.insert key value).keys.card = m.keys.card + 1 := by
      rw [Buckets.keys_finmap_insert, Finset.card_insert_of_notMem hmem]
    have hlt := card_lt (m.insert key value)
    rw [if_neg hold]
    rw [Option.not_isSome_iff_eq_none] at hold
    have hins := h.holds.insert (a := (⟨key.1, unset, value⟩ : HashNode ν)) (k := key)
      Subtype.val_injective rfl hold
    refine ⟨hins, ?_⟩
    show (t.size + 1).toNat = _
    rw [hcard] at hlt ⊢
    rw [UInt64.toNat_add, h.size]
    exact Nat.mod_eq_of_lt hlt

theorem PtrHolds.remove (h : t.PtrHolds m) (key : PtrKey) :
    (t.remove key).2 = (m.lookup key).isSome ∧ (t.remove key).1.PtrHolds (m.erase key) := by
  rw [remove_eq h.holds.wf.nodup, h.holds.isSome_find]
  by_cases hold : (m.lookup key).isSome = true
  · have hmem : key ∈ m.keys := Finmap.mem_keys.2 (Finmap.lookup_isSome.1 hold)
    rw [if_pos hold]
    refine ⟨hold.symm, h.holds.erase Subtype.val_injective, ?_⟩
    have hcard : (m.erase key).keys.card = m.keys.card - 1 := by
      rw [Finmap.keys_erase, Finset.card_erase_of_mem hmem]
    have hpos : 1 ≤ m.keys.card := Finset.card_pos.2 ⟨key, hmem⟩
    show (t.size - 1).toNat = _
    rw [UInt64.toNat_sub_of_le, hcard, ← h.size]
    · rfl
    · rw [UInt64.le_iff_toNat_le, h.size]
      exact hpos
  · rw [if_neg hold]
    refine ⟨(Bool.not_eq_true _ ▸ hold).symm, ?_, ?_⟩
    · rw [Option.not_isSome_iff_eq_none] at hold
      exact h.holds.erase_of_none hold
    · have hmem : key ∉ m.keys :=
        fun hmem => hold (Finmap.lookup_isSome.2 (Finmap.mem_keys.1 hmem))
      rw [Finmap.keys_erase, Finset.erase_eq_of_notMem hmem]
      exact h.size

/-! ## Runs -/

/-- A table that holds a map is as good as it. -/
theorem PtrHolds.agrees (h : t.PtrHolds m) : Agrees grows (t, m) := by
  refine ⟨fun op => ?_, h.size, h.holds.wf.nodup_toList⟩
  cases op with
  | set key value unset =>
    refine congrArg TableAnswer.done ?_
    show (t.set grows key value unset).2 = true
    rw [set, if_neg key.2, put_snd]
  | get key => exact congrArg TableAnswer.found (h.get key)
  | remove key => exact congrArg TableAnswer.done (h.remove key).1
  | size =>
    refine congrArg TableAnswer.size ?_
    rw [← h.size, UInt64.ofNat_toNat]

/-- **Steps** in which a doubling goes by the keys. -/
theorem PtrHolds.step (h : t.PtrHolds m) {op : PtrOp ν} (hok : Rehashes grows (t, m) op) :
    (t.ptrStep grows op).1.PtrHolds (mapStep m op.op).1 := by
  cases op with
  | set key value unset =>
    have hres : (t.resized grows).PtrHolds m := by
      unfold resized
      split
      · rename_i hgrows
        exact h.double (hok hgrows)
      · exact h
    show (t.set grows key value unset).1.PtrHolds _
    rw [set, if_neg key.2]
    exact hres.put key value unset
  | get key => exact h
  | remove key => exact (h.remove key).2
  | size => exact h

/-- A node that is put elsewhere is lost: its key is not found any more. -/
theorem PtrHolds.exists_lost (h : t.PtrHolds m) {n : HashNode ν}
    (hn : n ∈ Buckets.toList t.capacity t.buckets)
    (hne : rehashIndex (t.capacity * 2) n ≠ ptrBucket (t.capacity * 2) n.key) :
    ∃ lost ∈ m.keys, Buckets.find HashNode.key (ptrBucket t.double.capacity) t.double.buckets
      lost.1 = none := by
  obtain ⟨i, -, hi⟩ := Buckets.mem_toList.1 hn
  obtain ⟨lost, hlost⟩ := h.holds.named i n hi
  refine ⟨lost, (h.holds.mem_keys (ptrBucket_lt t)).1 (hlost ▸ List.mem_map_of_mem hn), ?_⟩
  rw [← hlost]
  exact Buckets.find_scatter_eq_none h.holds.wf.nodup_toList hn hne

/-- **The bad doubling.** The lost key is not found, or if it is the key that is being set, it is
counted once more. -/
theorem PtrHolds.not_agrees (h : t.PtrHolds m) {op : PtrOp ν} (hbad : ¬Rehashes grows (t, m) op) :
    ¬Agrees grows (bothStep grows (t, m) op) := by
  cases op with
  | set key value unset =>
    rw [Rehashes, Classical.not_imp] at hbad
    obtain ⟨hgrows, hbad⟩ := hbad
    push Not at hbad
    obtain ⟨n, hn, hne⟩ := hbad
    obtain ⟨lost, hmem, hnone⟩ := h.exists_lost hn hne
    have hnodup : ∀ i, ((t.double.buckets i).map HashNode.key).Nodup :=
      Buckets.nodup_scatter h.holds.wf.nodup_toList
    have hset : (t.set grows key value unset).1 = (t.double.put key value unset).1 := by
      rw [set, if_neg key.2, resized, if_pos hgrows]
    intro hagrees
    -- A lost key that is set again is counted twice; any other one is not found.
    by_cases hkey : lost = key
    · subst hkey
      have hsize : (t.set grows lost value unset).1.size.toNat = (m.insert lost value).keys.card :=
        hagrees.size
      rw [hset, size_put hnodup hnone, Buckets.keys_finmap_insert, Finset.insert_eq_self.2 hmem,
        ← h.size] at hsize
      change (t.size + 1).toNat = t.size.toNat at hsize
      rw [UInt64.toNat_add] at hsize
      have hlt := t.size.toNat_lt
      have h1 : (1 : UInt64).toNat = 1 := rfl
      omega
    · have hget : (t.set grows key value unset).1.get lost = (m.insert key value).lookup lost :=
        TableAnswer.found.inj (hagrees.answer (.get lost))
      rw [hset, get_put_of_ne hnodup hkey, get_eq_find, hnone, Finmap.lookup_insert_of_ne _ hkey,
        Option.map_none] at hget
      exact Finmap.lookup_eq_none.1 hget.symm (Finmap.mem_keys.1 hmem)
  | get key => exact absurd trivial hbad
  | remove key => exact absurd trivial hbad
  | size => exact absurd trivial hbad

end HashTable

open HashTable

/-- **Pointer keys:** whenever a table doubles, whatever its capacity, the calls and what memory is
in the nodes: the table answers as a finite map does, has its size, and has no key twice, all along
a run, if and only if each doubling puts all nodes where their keys hash to. -/
theorem ptrKeys_iff {ν : Type*} (grows : UInt64 → Nat → Bool) (capacity : Nat)
    (ops : List (PtrOp ν)) :
    Runs.Always (bothStep grows) (HashTable.Agrees grows) (.create capacity, ∅) ops ↔
      Runs.EachStep (bothStep grows) (Rehashes grows) (.create capacity, ∅) ops := by
  have hstep : ∀ (p : HashTable ν × Finmap fun _ : PtrKey => ν) (op : PtrOp ν),
      p.1.PtrHolds p.2 → True → Rehashes grows p op →
        (bothStep grows p op).1.PtrHolds (bothStep grows p op).2 :=
    fun p op h _ hok => h.step hok
  exact Runs.always_iff_eachStep hstep (fun p h => h.agrees)
    (fun p op h _ hbad => h.not_agrees hbad) (ptrHolds_create capacity) Runs.eachStep_true

/-- The source's condition: a load factor over `0.75`. -/
def overLoaded (size : UInt64) (capacity : Nat) : Bool := 3 * capacity < 4 * size.toNat

/-- The value `key` for each of the keys up to `n`, in nodes whose memory has pointers to `"a"`. -/
def setUpTo (n : Nat) : List (PtrOp Nat) :=
  (List.range n).filterMap fun i =>
    if h : UInt64.ofNat (i + 1) ≠ 0 then
      some (.set ⟨UInt64.ofNat (i + 1), h⟩ (i + 1) (some [0x61]))
    else none

/-- In a table of the default capacity the fourteenth key makes the table double, and the first key
is gone then, with its value. -/
theorem doubling_loses_keys :
    (Runs.run (fun t op => (ptrStep overLoaded t op).1) (.create 0) (setUpTo 13)).get 1 = some 1 ∧
      (Runs.run (fun t op => (ptrStep overLoaded t op).1) (.create 0) (setUpTo 14)).get 1 = none ∧
      (Runs.run (fun t op => (ptrStep overLoaded t op).1) (.create 0) (setUpTo 14)).size = 14 := by
  decide +kernel

end Ssn
