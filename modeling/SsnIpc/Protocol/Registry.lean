import SsnIpc.Lib.CString
import SsnIpc.Lib.Runs
import SsnIpc.Protocol.Sends
import SsnIpc.Util.HashTable

/-!
# Methods of a replier and topics of a subscriber

`ssn_rpc_register` and `ssn_rpc_unregister` of `src/protocol/rpc/ssn_rpc.c`,
`ssn_pubsub_sub_subscribe` and `ssn_pubsub_sub_unsubscribe` of `src/protocol/pubsub/ssn_pubsub.c`.
Both keep a hash table by name and, beside it, a counter. The counter goes up whenever
`ssn_hash_table_set_str` succeeds, also when that only replaced the entry of a name that was there.

**Theorem (`counts_iff`).** Along a run the counter is the size of the table, and the number of
names in it, exactly when no name is registered (or subscribed to) that is in the table.

Whether memory can be had, and what the socket answers, is a parameter of each call.
-/

namespace Ssn

open ByteMem Runs

variable {κ : Type*}

/-! ## The model -/

/-- Which allocations succeed: that of the entry, and those of the table. -/
structure EntryMem extends NodeMem where
  entry : Bool

/-- `rpc_method_entry_t`; the handler and its argument are one value. -/
structure RpcMethodEntry (κ : Type*) where
  methodName : Bytes
  handler : κ

/-- The methods of a `ssn_rpc_rep_t`. -/
structure RpcRep (κ : Type*) where
  methodTable : HashTable (RpcMethodEntry κ)
  methodCount : UInt64

namespace RpcRep

/-- `ssn_rpc_rep_create`. -/
def create : RpcRep κ := ⟨.create 16, 0⟩

/-- `ssn_rpc_register`. -/
def register (r : RpcRep κ) (methodName : Option Bytes) (handler : Option κ) (mem : EntryMem) :
    RpcRep κ × Int :=
  match methodName, handler with
  | some name, some k =>
    if mem.entry then
      let (table, ok) := r.methodTable.setStr name ⟨CString.copyBounded 64 name, k⟩ mem.toNodeMem
      if ok then (⟨table, r.methodCount + 1⟩, 0) else (r, -1)
    else (r, -1)
  | _, _ => (r, -1)

/-- `ssn_rpc_unregister`. -/
def unregister (r : RpcRep κ) : Option Bytes → RpcRep κ × Int
  | none => (r, -1)
  | some name =>
    match r.methodTable.getStr name with
    | some _ => (⟨(r.methodTable.removeStr name).1, r.methodCount - 1⟩, 0)
    | none => (r, -1)

end RpcRep

/-- `pubsub_sub_entry_t`. -/
structure PubsubSubEntry where
  topic : Bytes
  subscribed : Bool

/-- The topics of a `ssn_pubsub_sub_t`. -/
structure PubsubSub extends SendingCtx where
  topicTable : HashTable PubsubSubEntry
  topicCount : UInt64

/-- The message of a subscriber about a topic. -/
def topicMsg (msgType : UInt8) (topic : Bytes) : Message :=
  ⟨msgType, 0, 0, some (nameRef topic), none⟩

namespace PubsubSub

/-- `ssn_pubsub_sub_create`. -/
def create : PubsubSub := ⟨⟨none, []⟩, .create 16, 0⟩

/-- `ssn_pubsub_sub_connect`. -/
def connect (s : PubsubSub) : Option Transport → PubsubSub × Int
  | none => (s, -1)
  | some t => ({ s with transport := some t }, 0)

/-- The entry of a topic is removed. -/
def remove (s : PubsubSub) (topic : Bytes) : PubsubSub :=
  { s with
    topicTable := (s.topicTable.removeStr topic).1
    topicCount := s.topicCount - 1 }

/-- The end of `ssn_pubsub_sub_subscribe`: the request is sent, and the entry removed again if that
fails. -/
def sendSubscribe (s : PubsubSub) (t : Transport) (topic : Bytes) (env : SendEnv) :
    PubsubSub × Int :=
  let (c, ret) := s.toSendingCtx.send t (topicMsg MsgType.subscribe topic) env
  let s := { s with toSendingCtx := c }
  if ret = 0 then (s, 0) else (s.remove topic, -1)

/-- `ssn_pubsub_sub_subscribe`. -/
def subscribe (s : PubsubSub) (topic : Option Bytes) (mem : EntryMem) (env : SendEnv) :
    PubsubSub × Int :=
  match topic, s.transport with
  | some topic, some t =>
    if mem.entry then
      let (table, ok) :=
        s.topicTable.setStr topic ⟨CString.copyBounded 64 topic, true⟩ mem.toNodeMem
      if ok then
        { s with topicTable := table, topicCount := s.topicCount + 1 }.sendSubscribe t topic env
      else (s, -1)
    else (s, -1)
  | _, _ => (s, -1)

/-- `ssn_pubsub_sub_unsubscribe`. What becomes of the message does not matter to it. -/
def unsubscribe (s : PubsubSub) (topic : Option Bytes) (env : SendEnv) : PubsubSub × Int :=
  match topic with
  | none => (s, -1)
  | some topic =>
    match s.topicTable.getStr topic with
    | none => (s, -1)
    | some _ =>
      let c := s.transport.elim s.toSendingCtx fun t =>
        (s.toSendingCtx.send t (topicMsg MsgType.unsubscribe topic) env).1
      ({ s with toSendingCtx := c }.remove topic, 0)

end PubsubSub

inductive RepOp (κ : Type*)
  | register (methodName : Option Bytes) (handler : Option κ) (mem : EntryMem)
  | unregister (methodName : Option Bytes)

def RpcRep.step (r : RpcRep κ) : RepOp κ → RpcRep κ
  | .register methodName handler mem => (r.register methodName handler mem).1
  | .unregister methodName => (r.unregister methodName).1

inductive SubOp
  | connect (transport : Option Transport)
  | subscribe (topic : Option Bytes) (mem : EntryMem) (env : SendEnv)
  | unsubscribe (topic : Option Bytes) (env : SendEnv)

def PubsubSub.step (s : PubsubSub) : SubOp → PubsubSub
  | .connect t => (s.connect t).1
  | .subscribe topic mem env => (s.subscribe topic mem env).1
  | .unsubscribe topic env => (s.unsubscribe topic env).1

/-! ## A table and its counter -/

namespace HashTable

variable {ν : Type*} {t : HashTable ν} {key : Bytes}

/-- The counter is the size of the table, and that is the number of names in it. -/
def Counted (t : HashTable ν) (count : UInt64) : Prop :=
  count = t.size ∧ t.size = UInt64.ofNat t.names.toFinset.card

theorem StrWf.counted_iff (h : t.StrWf) (count : UInt64) : t.Counted count ↔ count = t.size :=
  and_iff_left h.size_eq_card

/-- A table with names, and its counter. -/
structure CountWf (t : HashTable ν) (count : UInt64) : Prop where
  wf : t.StrWf
  count : count = t.size

theorem CountWf.counted {count : UInt64} (h : t.CountWf count) : t.Counted count :=
  (h.wf.counted_iff count).2 h.count

theorem countWf_create (capacity : Nat) : (create capacity : HashTable ν).CountWf 0 :=
  ⟨strWf_create capacity, rfl⟩

theorem StrWf.notMem_names (h : t.StrWf) : key ∉ t.names ↔ t.getStr key = none := by
  rw [h.mem_names, Option.not_isSome_iff_eq_none]

theorem StrWf.size_setStr_of_new (h : t.StrWf) (hnew : key ∉ t.names) {value : ν} {mem : NodeMem}
    (hok : (t.setStr key value mem).2 = true) :
    (t.setStr key value mem).1.size = t.size + 1 := by
  rw [h.setStr_eq, h.notMem_names.1 hnew] at hok ⊢
  simp only [Option.isSome_none, Bool.false_eq_true, if_false] at hok ⊢
  split_ifs at hok ⊢
  rfl

theorem StrWf.setStr_of_mem (h : t.StrWf) (hold : key ∈ t.names) (value : ν) (mem : NodeMem) :
    (t.setStr key value mem).2 = true ∧ (t.setStr key value mem).1.size = t.size := by
  rw [h.setStr_eq, if_pos (h.mem_names.1 hold)]
  exact ⟨rfl, rfl⟩

theorem setStr_mem_names {value : ν} {mem : NodeMem} (h : t.StrWf)
    (hok : (t.setStr key value mem).2 = true) : key ∈ (t.setStr key value mem).1.names := by
  rw [(h.setStr key value mem).mem_names, h.getStr_setStr hok, if_pos rfl]
  rfl

theorem StrWf.size_removeStr (h : t.StrWf) (hold : key ∈ t.names) :
    (t.removeStr key).1.size = t.size - 1 := by
  rw [h.removeStr_eq, if_pos (h.mem_names.1 hold)]

theorem add_one_ne (n : UInt64) : n + 1 ≠ n := by
  intro h
  have h1 : (1 : UInt64) = 0 := by
    rwa [UInt64.add_eq_left] at h
  exact absurd h1 (by decide)

theorem CountWf.removeStr {count : UInt64} (h : t.CountWf count) (hold : key ∈ t.names) :
    (t.removeStr key).1.CountWf (count - 1) :=
  ⟨h.wf.removeStr key, by rw [h.wf.size_removeStr hold, h.count]⟩

theorem CountWf.setStr {count : UInt64} (h : t.CountWf count) (hnew : key ∉ t.names) {value : ν}
    {mem : NodeMem} (hok : (t.setStr key value mem).2 = true) :
    (t.setStr key value mem).1.CountWf (count + 1) :=
  ⟨h.wf.setStr key value mem, by rw [h.wf.size_setStr_of_new hnew hok, h.count]⟩

theorem CountWf.not_counted_setStr {count : UInt64} (h : t.CountWf count) (hold : key ∈ t.names)
    (value : ν) (mem : NodeMem) : ¬ (t.setStr key value mem).1.Counted (count + 1) := by
  rintro ⟨hcount, -⟩
  rw [(h.wf.setStr_of_mem hold value mem).2, h.count] at hcount
  exact add_one_ne _ hcount

theorem CountWf.not_counted_removeStr {count : UInt64} (h : t.CountWf count) (hold : key ∈ t.names)
    (value : ν) (mem : NodeMem) :
    ¬ ((t.setStr key value mem).1.removeStr key).1.Counted (count + 1 - 1) := by
  obtain ⟨hok, hsize⟩ := h.wf.setStr_of_mem hold value mem
  have hwf := h.wf.setStr key value mem
  rintro ⟨hcount, -⟩
  rw [hwf.size_removeStr (setStr_mem_names h.wf hok), hsize, h.count, UInt64.add_sub_cancel]
    at hcount
  exact add_one_ne (t.size - 1) (by rw [UInt64.sub_add_cancel, ← hcount])

end HashTable

/-! ## Methods -/

namespace RpcRep

variable {r : RpcRep κ}

/-- A registration is of a name that is not in the table. -/
def Fresh (r : RpcRep κ) : RepOp κ → Prop
  | .register (some name) (some _) mem => mem.entry = true → name ∉ r.methodTable.names
  | _ => True

theorem countWf_step (h : r.methodTable.CountWf r.methodCount) (op : RepOp κ) (hop : r.Fresh op) :
    (r.step op).methodTable.CountWf (r.step op).methodCount := by
  cases op with
  | register name handler mem =>
    rcases name with _ | name
    · exact h
    rcases handler with _ | k
    · exact h
    simp only [step, register]
    split_ifs with hentry hok
    · exact h.setStr (hop hentry) hok
    · exact h
    · exact h
  | unregister name =>
    rcases name with _ | name
    · exact h
    simp only [step, unregister]
    cases hget : r.methodTable.getStr name with
    | none => exact h
    | some e => exact h.removeStr (h.wf.mem_names.2 (by simp [hget]))

theorem not_counted_step (h : r.methodTable.CountWf r.methodCount) (op : RepOp κ)
    (hop : ¬ r.Fresh op) : ¬ (r.step op).methodTable.Counted (r.step op).methodCount := by
  cases op with
  | unregister _ => exact absurd trivial hop
  | register name handler mem =>
    rcases name with _ | name
    · exact absurd trivial hop
    rcases handler with _ | k
    · exact absurd trivial hop
    obtain ⟨hentry, hold⟩ := Classical.not_imp.1 hop
    rw [not_not] at hold
    have hok := (h.wf.setStr_of_mem hold ⟨CString.copyBounded 64 name, k⟩ mem.toNodeMem).1
    simp only [step, register, hentry, hok, if_true]
    exact h.not_counted_setStr hold _ _

end RpcRep

/-! ## Topics -/

namespace PubsubSub

variable {s : PubsubSub}

/-- A subscription is to a topic that is not in the table. -/
def Fresh (s : PubsubSub) : SubOp → Prop
  | .subscribe (some topic) mem _ =>
    s.transport.isSome → mem.entry = true → topic ∉ s.topicTable.names
  | _ => True

theorem countWf_step (h : s.topicTable.CountWf s.topicCount) (op : SubOp) (hop : s.Fresh op) :
    (s.step op).topicTable.CountWf (s.step op).topicCount := by
  cases op with
  | connect t =>
    cases t <;> exact h
  | subscribe topic mem env =>
    rcases topic with _ | topic
    · exact h
    cases ht : s.transport with
    | none => simpa only [step, subscribe, ht] using h
    | some t =>
      simp only [step, subscribe, ht, sendSubscribe]
      split_ifs with hentry hok hsent
      · exact h.setStr (hop (by simp [ht]) hentry) hok
      · have hset := h.setStr (hop (by simp [ht]) hentry) hok
        exact hset.removeStr (HashTable.setStr_mem_names h.wf hok)
      · exact h
      · exact h
  | unsubscribe topic env =>
    rcases topic with _ | topic
    · exact h
    simp only [step, unsubscribe]
    cases hget : s.topicTable.getStr topic with
    | none => exact h
    | some e => exact h.removeStr (h.wf.mem_names.2 (by simp [hget]))

theorem not_counted_step (h : s.topicTable.CountWf s.topicCount) (op : SubOp)
    (hop : ¬ s.Fresh op) : ¬ (s.step op).topicTable.Counted (s.step op).topicCount := by
  cases op with
  | connect _ => exact absurd trivial hop
  | unsubscribe _ _ => exact absurd trivial hop
  | subscribe topic mem env =>
    rcases topic with _ | topic
    · exact absurd trivial hop
    obtain ⟨hsome, hop⟩ := Classical.not_imp.1 hop
    obtain ⟨hentry, hold⟩ := Classical.not_imp.1 hop
    rw [not_not] at hold
    obtain ⟨t, ht⟩ := Option.isSome_iff_exists.1 hsome
    have hok := (h.wf.setStr_of_mem hold ⟨CString.copyBounded 64 topic, true⟩ mem.toNodeMem).1
    simp only [step, subscribe, ht, hentry, hok, if_true, sendSubscribe]
    split_ifs
    · exact h.not_counted_setStr hold _ _
    · exact h.not_counted_removeStr hold _ _

end PubsubSub

/-! ## The counters -/

/-- **When the counters are right.** After every sequence of registrations and removals, with any
allocations failing, `method_count` is the size of the table and the number of names in it, exactly
if no step registered a name that was in the table. The same holds of `topic_count` and
subscriptions, whatever becomes of the messages. -/
theorem counts_iff :
    (∀ ops : List (RepOp κ),
      Always RpcRep.step (fun r => r.methodTable.Counted r.methodCount) RpcRep.create ops ↔
        EachStep RpcRep.step RpcRep.Fresh RpcRep.create ops) ∧
    ∀ ops : List SubOp,
      Always PubsubSub.step (fun s => s.topicTable.Counted s.topicCount) PubsubSub.create ops ↔
        EachStep PubsubSub.step PubsubSub.Fresh PubsubSub.create ops := by
  constructor
  · intro ops
    exact always_iff_eachStep
      (fun (r : RpcRep κ) op (h : r.methodTable.CountWf r.methodCount) _ => r.countWf_step h op)
      (fun _ h => h.counted) (fun r op h _ => RpcRep.not_counted_step h op)
      (HashTable.countWf_create 16) eachStep_true
  · intro ops
    exact always_iff_eachStep
      (fun s op (h : s.topicTable.CountWf s.topicCount) _ => PubsubSub.countWf_step h op)
      (fun _ h => h.counted) (fun s op h _ => PubsubSub.not_counted_step h op)
      (HashTable.countWf_create 16) eachStep_true

/-- `"/a"` is registered twice. -/
def registerTwice : List (RepOp Nat) :=
  List.replicate 2 (.register (some [0x2F, 0x61]) (some 0) ⟨⟨true, true⟩, true⟩)

/-- `"/a"` is subscribed to twice, on a socket that takes everything. -/
def subscribeTwice : List SubOp :=
  .connect (some ⟨3, 0⟩) ::
    List.replicate 2 (.subscribe (some [0x2F, 0x61]) ⟨⟨true, true⟩, true⟩ .ready)

/-- Both counters are then 2, and both tables have one entry. -/
theorem countedTwice :
    (run RpcRep.step RpcRep.create registerTwice).methodCount = 2 ∧
      (run RpcRep.step RpcRep.create registerTwice).methodTable.size = 1 ∧
      (run PubsubSub.step PubsubSub.create subscribeTwice).topicCount = 2 ∧
      (run PubsubSub.step PubsubSub.create subscribeTwice).topicTable.size = 1 := by
  decide +kernel

end Ssn
