import SsnIpc.Lib.Runs
import SsnIpc.Util.HashTable

/-!
# Tables with string keys

A table that is only used with string keys is a finite map. The key of a call is a string in the
caller's memory; the table compares it by its contents and keeps a copy. So it does not matter what
becomes of the caller's memory between two calls: each call brings its own.

**Theorem (`strKeys_map`).** Whatever the capacity, all operations answer as those of a finite map
do, and at any time each node hangs in the bucket of its key's hash, and no bucket has a key twice.
-/

namespace Ssn

open ByteMem

/-- A string that a call is given: where it lies in the memory of the caller as it then is. -/
structure CallerString where
  mem : Mem
  ptr : Nat
  str : Bytes
  isStr : CStringAt mem ptr str

inductive StrOp (ν : Type*)
  | set (key : CallerString) (value : ν)
  | get (key : CallerString)
  | remove (key : CallerString)
  | size

/-- The operation that a call is by its contents. -/
def StrOp.op {ν : Type*} : StrOp ν → TableOp Bytes ν
  | .set key value => .set key.str value
  | .get key => .get key.str
  | .remove key => .remove key.str
  | .size => .size

namespace HashTable

variable {ν : Type*} {t : HashTable ν} {m : Finmap fun _ : Bytes => ν}

/-- A call, with memory for what it allocates. -/
def strStep (t : HashTable ν) : StrOp ν → HashTable ν × TableAnswer ν
  | .set key value =>
    let (t, ok) := t.setStr key.str value ⟨true, true⟩
    (t, .done ok)
  | .get key => (t, .found (t.getStr key.str))
  | .remove key =>
    let (t, ok) := t.removeStr key.str
    (t, .done ok)
  | .size => (t, .size t.size)

/-- Nodes hang where their keys hash to, and no bucket has a key twice. -/
def StrPlaced (t : HashTable ν) : Prop :=
  ∀ i, (∀ n ∈ t.buckets i, ∃ key, n.strKey = some key ∧ strHashIndex key t.capacity = i) ∧
    ((t.buckets i).map HashNode.strKey).Nodup

structure StrHolds (t : HashTable ν) (m : Finmap fun _ : Bytes => ν) : Prop where
  wf : t.StrWf
  holds : Buckets.Holds HashNode.strKey HashNode.value (strBucket t.capacity) some t.buckets m

theorem StrHolds.getStr (h : t.StrHolds m) (key : Bytes) : t.getStr key = m.lookup key :=
  h.holds.lookup key

theorem StrHolds.size (h : t.StrHolds m) : t.size = UInt64.ofNat m.keys.card := by
  rw [h.wf.size, h.holds.length_toList (Option.some_injective _) (strBucket_lt t)]

theorem StrHolds.placed (h : t.StrHolds m) : t.StrPlaced := by
  refine fun i => ⟨fun n hn => ?_, h.wf.wf.nodup i⟩
  obtain ⟨key, hkey⟩ := h.holds.named i n hn
  have hi : strBucket t.capacity n.strKey = i := h.wf.wf.placed i n hn
  rw [hkey] at hi
  exact ⟨key, hkey, hi⟩

theorem strHolds_create (capacity : Nat) : (create capacity : HashTable ν).StrHolds ∅ :=
  ⟨strWf_create capacity, Buckets.holds_empty⟩

theorem StrHolds.setStr (h : t.StrHolds m) (key : Bytes) (value : ν) :
    (t.setStr key value ⟨true, true⟩).2 = true ∧
      (t.setStr key value ⟨true, true⟩).1.StrHolds (m.insert key value) := by
  have hwf := h.wf.setStr key value ⟨true, true⟩
  have hget := h.getStr key
  rw [h.wf.setStr_eq] at hwf ⊢
  by_cases hold : (t.getStr key).isSome = true
  · rw [if_pos hold] at hwf ⊢
    exact ⟨rfl, hwf, h.holds.modify (f := fun n => { n with value }) (Option.some_injective _)
      (fun _ => rfl) (fun _ => rfl) (hget ▸ hold)⟩
  · rw [if_neg hold, if_pos ⟨rfl, rfl⟩] at hwf ⊢
    refine ⟨rfl, hwf, ?_⟩
    rw [hget, Option.not_isSome_iff_eq_none] at hold
    exact h.holds.insert (a := ⟨0, some key, value⟩) (Option.some_injective _) rfl hold

theorem StrHolds.removeStr (h : t.StrHolds m) (key : Bytes) :
    (t.removeStr key).2 = (m.lookup key).isSome ∧ (t.removeStr key).1.StrHolds (m.erase key) := by
  have hwf := h.wf.removeStr key
  have hget := h.getStr key
  rw [h.wf.removeStr_eq] at hwf ⊢
  rw [← hget]
  by_cases hold : (t.getStr key).isSome = true
  · rw [if_pos hold] at hwf ⊢
    exact ⟨hold.symm, hwf, h.holds.erase (Option.some_injective _)⟩
  · rw [if_neg hold] at hwf ⊢
    refine ⟨(Bool.not_eq_true _ ▸ hold).symm, hwf, ?_⟩
    rw [hget, Option.not_isSome_iff_eq_none] at hold
    exact h.holds.erase_of_none hold

/-- **Steps.** A call answers as the map does, and the table goes on holding it. -/
theorem StrHolds.step (h : t.StrHolds m) (op : StrOp ν) :
    (t.strStep op).2 = (mapStep m op.op).2 ∧ (t.strStep op).1.StrHolds (mapStep m op.op).1 := by
  cases op with
  | set key value =>
    obtain ⟨hok, hnext⟩ := h.setStr key.str value
    exact ⟨congrArg TableAnswer.done hok, hnext⟩
  | get key => exact ⟨congrArg TableAnswer.found (h.getStr key.str), h⟩
  | remove key =>
    obtain ⟨hok, hnext⟩ := h.removeStr key.str
    exact ⟨congrArg TableAnswer.done hok, hnext⟩
  | size => exact ⟨congrArg TableAnswer.size h.size, h⟩

end HashTable

open HashTable

/-- **String keys:** for every capacity and every sequence of calls with string keys, in whatever
state each finds the caller's memory, the answers are those of a finite map by the contents of the
keys; and all along each node hangs in the bucket that its key's hash gives, and no key is twice in
a bucket. -/
theorem strKeys_map {ν : Type*} (capacity : Nat) (ops : List (StrOp ν)) :
    Runs.answers strStep (.create capacity) ops =
        Runs.answers (fun m op => mapStep m (StrOp.op op)) ∅ ops ∧
      Runs.Always (fun t op => (strStep t op).1) StrPlaced (.create capacity) ops := by
  have hstep : ∀ (t : HashTable ν) (op : StrOp ν), (∃ m, t.StrHolds m) → True →
      ∃ m, (t.strStep op).1.StrHolds m := by
    rintro t op ⟨m, h⟩ -
    exact ⟨_, (h.step op).2⟩
  constructor
  · exact Runs.answers_eq_of_simulation (fun t m op h _ => h.step op) (strHolds_create capacity)
      Runs.eachStep_true
  · refine Runs.always_of_invariant hstep ?_ ⟨∅, strHolds_create capacity⟩ Runs.eachStep_true
    rintro t ⟨m, h⟩
    exact h.placed

end Ssn
