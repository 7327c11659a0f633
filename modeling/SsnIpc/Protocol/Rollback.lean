import SsnIpc.Protocol.Registry

/-!
# Subscriptions that fail

`ssn_pubsub_sub_subscribe` enters the topic first and sends the request then; if that fails, it
removes the topic again. This takes back what it did only if the topic was new: of a topic that was
subscribed to before, the entry has been replaced, and it is the only one.

**Theorem (`subscribe_rollback_iff`).** In every state that a subscriber can come to, a failing
subscription leaves topics, entries and counter alone exactly if the topic is new, or nothing was
entered.
-/

namespace Ssn

open ByteMem Runs

namespace PubsubSub

structure SameTopics (s s' : PubsubSub) : Prop where
  entries : ∀ topic, s'.topicTable.getStr topic = s.topicTable.getStr topic
  count : s'.topicCount = s.topicCount

variable {s : PubsubSub}

theorem strWf_step (h : s.topicTable.StrWf) (op : SubOp) : (s.step op).topicTable.StrWf := by
  cases op with
  | connect t => cases t <;> exact h
  | subscribe topic mem env =>
    rcases topic with _ | topic
    · exact h
    cases ht : s.transport with
    | none => simpa only [step, subscribe, ht] using h
    | some t =>
      simp only [step, subscribe, ht, sendSubscribe]
      split_ifs
      · exact h.setStr ..
      · exact (h.setStr ..).removeStr _
      · exact h
      · exact h
  | unsubscribe topic env =>
    rcases topic with _ | topic
    · exact h
    simp only [step, unsubscribe]
    cases s.topicTable.getStr topic with
    | none => exact h
    | some e => exact h.removeStr topic

theorem strWf_run (ops : List SubOp) : (run step create ops).topicTable.StrWf := by
  have hstep : ∀ (s : PubsubSub) (op : SubOp), s.topicTable.StrWf → True →
      (s.step op).topicTable.StrWf :=
    fun _ op h _ => strWf_step h op
  exact run_invariant hstep (HashTable.strWf_create 16) eachStep_true

theorem sameTopics_remove_iff (h : s.topicTable.StrWf) {topic : Bytes} {entry : PubsubSubEntry}
    {mem : NodeMem} (hok : (s.topicTable.setStr topic entry mem).2 = true) (c : SendingCtx) :
    SameTopics s (remove ⟨c, (s.topicTable.setStr topic entry mem).1, s.topicCount + 1⟩ topic) ↔
      topic ∉ s.topicTable.names := by
  have hwf := h.setStr topic entry mem
  rw [h.notMem_names]
  constructor
  · intro hsame
    have hentry := hsame.entries topic
    rw [remove, hwf.getStr_removeStr, if_pos rfl] at hentry
    exact hentry.symm
  · intro hnew
    refine ⟨fun other => ?_, UInt64.add_sub_cancel _ _⟩
    rw [remove, hwf.getStr_removeStr, h.getStr_setStr hok]
    split_ifs with hkey
    · rw [hkey, hnew]
    · rfl

end PubsubSub

open PubsubSub

/-- **Failed subscriptions:** after every sequence of calls, whatever the topic, the allocations and
the socket: if `ssn_pubsub_sub_subscribe` returns `-1`, the table has the same topics with the same
entries and the counter has its value, if and only if the topic is not one that is subscribed to
(when the call comes to entering it) or the call succeeds. -/
theorem subscribe_rollback_iff (ops : List SubOp) (topic : Option Bytes) (mem : EntryMem)
    (env : SendEnv) :
    (((run step create ops).subscribe topic mem env).2 = -1 →
        SameTopics (run step create ops) ((run step create ops).subscribe topic mem env).1) ↔
      (run step create ops).Fresh (.subscribe topic mem env) ∨
        ((run step create ops).subscribe topic mem env).2 = 0 := by
  have h := strWf_run ops
  generalize run step create ops = s at h ⊢
  have hself : SameTopics s s := ⟨fun _ => rfl, rfl⟩
  rcases topic with _ | topic
  · exact iff_of_true (fun _ => hself) (.inl trivial)
  cases ht : s.transport with
  | none => simp [subscribe, ht, Fresh, hself]
  | some t =>
    simp only [subscribe, ht, Fresh, sendSubscribe]
    split_ifs with hentry hok hsent
    · simp
    · simp [sameTopics_remove_iff h hok, hentry]
    · have hnew : topic ∉ s.topicTable.names := fun hold => hok (h.setStr_of_mem hold _ _).1
      exact iff_of_true (fun _ => hself) (.inl fun _ _ => hnew)
    · simp [hself, hentry]

/-- A socket on which every send fails. -/
def SendEnv.broken : SendEnv := ⟨.zero, fun _ => .failed⟩

/-- `"/a"` is subscribed to. Asking for it once more on a socket that fails returns `-1`, and then
it is not subscribed to any more. -/
theorem resubscribe_removes :
    let s := run PubsubSub.step PubsubSub.create
      [.connect (some ⟨3, 0⟩), .subscribe (some [0x2F, 0x61]) ⟨⟨true, true⟩, true⟩ .ready]
    let r := s.subscribe (some [0x2F, 0x61]) ⟨⟨true, true⟩, true⟩ .broken
    (s.topicTable.getStr [0x2F, 0x61]).isSome = true ∧ r.2 = -1 ∧
      (r.1.topicTable.getStr [0x2F, 0x61]).isSome = false := by
  decide +kernel

end Ssn
