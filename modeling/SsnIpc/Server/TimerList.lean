import SsnIpc.ListMacros
import SsnIpc.Server.Timers

/-!
# The timer list in memory

The node of a client's timer is embedded in the client and linked into `server->hst_h`. It is
linked when the client is accepted, and unlinked in three places: by a SERVICE_INFO if idle
connections are kept, by the timer's event, and when the client is destroyed. The flag `linked`
tells the last one whether there is anything left to unlink. Every unlink is also recorded.

**Theorem (`timerList_ok`).** Whatever events come, no access to a freed node is made, the list is
well formed and its nodes are those of the clients in the table whose flag is set, and no node is
unlinked twice.

`Rep` relates the memory to the timers of `TimerEvent.step`; each operation has one lemma that
says it returns and what it does to the timers. The two loops walk the list while they write to
it, one of them while it unlinks and frees the node it stands on: the induction is on the part of
the list still ahead.
-/

namespace Ssn

open Dll

variable {β : Type*} {keepalive handshake : Int}

/-! ## The model -/

/-- The timer node of a client: the client it is embedded in, and the fields of `ssn_server_hst_t`
besides the links. -/
structure TimerNode where
  id : UInt32
  hst : Hst

/-- The timer list of a server. A node is allocated and freed with its client, so its address
stands for the client; `clis` is the client table. `unlinked` records the unlinks. -/
structure TimerList where
  heap : Heap TimerNode
  hstH : Option Nat
  clis : UInt32 → Option Nat
  unlinked : List Nat

namespace TimerList

def init : TimerList := ⟨.empty, none, fun _ => none, []⟩

/-- Write the fields of a node. -/
def setHst (t : TimerList) (p : Nat) (h : Hst) : Option TimerList := do
  let heap ← t.heap.modify p fun n => { n with val := { n.val with hst := h } }
  return { t with heap }

/-- `DELETE_FROM_LIST(hst, server->hst_h)`. -/
def unlink (t : TimerList) (p : Nat) : Option TimerList := do
  let (heap, hstH) ← deleteFromList t.heap p t.hstH
  return { t with heap, hstH, unlinked := t.unlinked ++ [p] }

/-- `ssn_server_cli_init` for a client that was just allocated. -/
def cliInit (handshake : Int) (t : TimerList) (id : UInt32) : Option TimerList := do
  let (heap, p) := t.heap.alloc ⟨id, ⟨0, false⟩⟩
  let t := { t with heap, clis := Function.update t.clis id (some p) }
  let t ← t.setHst p (Hst.start handshake)
  let (heap, hstH) ← insertToHeader t.heap p t.hstH
  return { t with heap, hstH }

/-- `ssn_server_cli_destroy`. -/
def cliDestroy (t : TimerList) (p : Nat) : Option TimerList := do
  let n ← t.heap.valAt p
  let t := { t with clis := Function.update t.clis n.id none }
  let t ←
    if n.hst.linked then do
      let t ← t.setHst p { n.hst with linked := false }
      t.unlink p
    else some t
  let heap ← t.heap.free p
  return { t with heap }

/-- The reset in `ssn_server_input`. -/
def touch (keepalive : Int) (t : TimerList) (p : Nat) : Option TimerList := do
  let n ← t.heap.valAt p
  if 0 < keepalive ∧ n.hst.alive ≠ 0 then t.setHst p { n.hst with alive := idleMs keepalive }
  else some t

/-- The timer part of `ssn_server_handle_service_info`. -/
def startIdle (keepalive : Int) (t : TimerList) (p : Nat) : Option TimerList := do
  let n ← t.heap.valAt p
  if 0 < keepalive then t.setHst p { n.hst with alive := idleMs keepalive }
  else if n.hst.linked then do
    let t ← t.setHst p ⟨0, false⟩
    t.unlink p
  else some t

/-- The loop of `ssn_server_timer_handle`, from a node on. -/
def sweepLoop : Nat → TimerList → Option Nat → Option TimerList
  | _, t, none => some t
  | 0, _, some _ => none
  | k + 1, t, some p => do
    let n ← t.heap.valAt p
    let t ← t.setHst p { n.hst with
      alive := if n.hst.alive ≤ timerPeriod then 0 else n.hst.alive - timerPeriod }
    let n ← t.heap.cells p
    sweepLoop k t n.next

/-- The loop of `ssn_server_handle_event_input`, from a node on. The next node is read before the
body. -/
def eventLoop : Nat → TimerList → Option Nat → Option TimerList
  | _, t, none => some t
  | 0, _, some _ => none
  | k + 1, t, some p => do
    let n ← t.heap.cells p
    let t ←
      if n.val.hst.alive = 0 then do
        let t ← t.setHst p { n.val.hst with linked := false }
        let t ← t.unlink p
        t.cliDestroy p
      else some t
    eventLoop k t n.next

/-- One event. No list is longer than the number of addresses handed out. -/
def step (keepalive handshake : Int) (t : TimerList) : TimerEvent → Option TimerList
  | .accepted id => if (t.clis id).isSome then some t else t.cliInit handshake id
  | .frame id f =>
    match t.clis id with
    | none => some t
    | some p => do
      let t ← t.touch keepalive p
      if getMsgType f = MsgType.serviceInfo then t.startIdle keepalive p else some t
  | .sweep => sweepLoop t.heap.fresh t t.hstH
  | .event => eventLoop t.heap.fresh t t.hstH
  | .closed id =>
    match t.clis id with
    | none => some t
    | some p => t.cliDestroy p

/-- Events one after the other, up to the first fault. -/
def run (keepalive handshake : Int) (t : TimerList) (es : List TimerEvent) : Option TimerList :=
  es.foldlM (step keepalive handshake) t

/-! ## Memory and timers -/

/-- The list holds the nodes `ps`, and the memory holds the timers `tbl`. -/
structure Rep (t : TimerList) (ps : List Nat) (tbl : Timers) : Prop where
  chain : Chain t.heap t.hstH ps
  nodup : ps.Nodup
  node : ∀ id p, t.clis id = some p →
    ∃ h, t.heap.valAt p = some ⟨id, h⟩ ∧ tbl id = some h ∧ (h.linked = true ↔ p ∈ ps)
  absent : ∀ id, t.clis id = none → tbl id = none
  owner : ∀ p ∈ ps, ∃ id, t.clis id = some p
  gone : ∀ p ∈ t.unlinked, p ∉ ps ∧ p < t.heap.fresh
  once : t.unlinked.Nodup

variable {t : TimerList} {ps : List Nat} {tbl : Timers} {id : UInt32} {p : Nat}

theorem rep_init : Rep init [] fun _ => none where
  chain := chain_empty
  nodup := List.nodup_nil
  node _ _ h := nomatch h
  absent _ _ := rfl
  owner _ h := nomatch h
  gone _ h := nomatch h
  once := List.nodup_nil

theorem Rep.clis_inj (hr : Rep t ps tbl) {id' : UInt32} (h : t.clis id = some p)
    (h' : t.clis id' = some p) : id' = id := by
  obtain ⟨g, hg, -⟩ := hr.node id p h
  obtain ⟨g', hg', -⟩ := hr.node id' p h'
  rw [hg] at hg'
  exact (congrArg TimerNode.id (Option.some.inj hg')).symm

theorem Rep.update (hr : Rep t ps tbl) (hp : t.clis id = some p) {heap : Heap TimerNode}
    {head : Option Nat} {qs unlinked : List Nat} {h : Hst} (hc : Chain heap head qs)
    (hnd : qs.Nodup)
    (hval : heap.valAt = Function.update t.heap.valAt p (some ⟨id, h⟩))
    (hqs : ∀ q, q ≠ p → (q ∈ qs ↔ q ∈ ps)) (hlinked : h.linked = true ↔ p ∈ qs)
    (hgone : ∀ q ∈ unlinked, q ∉ qs ∧ q < heap.fresh) (honce : unlinked.Nodup) :
    Rep ⟨heap, head, t.clis, unlinked⟩ qs (Function.update tbl id (some h)) where
  chain := hc
  nodup := hnd
  node id' p' hp' := by
    by_cases e : id' = id
    · subst e
      obtain rfl := Option.some.inj (hp.symm.trans hp')
      exact ⟨h, by rw [hval, Function.update_self], Function.update_self .., hlinked⟩
    · have hne : p' ≠ p := fun ep => e (hr.clis_inj hp (ep ▸ hp'))
      obtain ⟨g, hg, htbl, hl⟩ := hr.node id' p' hp'
      exact ⟨g, by rw [hval, Function.update_of_ne hne, hg], by rw [Function.update_of_ne e, htbl],
        hl.trans (hqs p' hne).symm⟩
  absent id' hnone := by
    have e : id' ≠ id := by
      rintro rfl
      rw [hp] at hnone
      cases hnone
    rw [Function.update_of_ne e]
    exact hr.absent id' hnone
  owner q hq := by
    by_cases e : q = p
    · exact ⟨id, by rw [e, hp]⟩
    · exact hr.owner q ((hqs q e).1 hq)
  gone := hgone
  once := honce

theorem Rep.remove (hr : Rep t ps tbl) (hp : t.clis id = some p) (hps : p ∉ ps)
    {heap : Heap TimerNode} (hcells : heap.cells = Function.update t.heap.cells p none)
    (hfresh : heap.fresh = t.heap.fresh) :
    Rep ⟨heap, t.hstH, Function.update t.clis id none, t.unlinked⟩ ps
      (Function.update tbl id none) where
  -- The node is in no list, so freeing it changes no link.
  chain := hr.chain.congr fun q hq => by
    rw [hcells, Function.update_of_ne (ne_of_mem_of_not_mem hq hps)]
  nodup := hr.nodup
  node id' p' hp' := by
    dsimp only at hp'
    by_cases e : id' = id
    · subst e
      rw [Function.update_self] at hp'
      cases hp'
    · rw [Function.update_of_ne e] at hp'
      have hne : p' ≠ p := fun ep => e (hr.clis_inj hp (ep ▸ hp'))
      obtain ⟨g, hg, htbl, hl⟩ := hr.node id' p' hp'
      exact ⟨g, by rw [Heap.valAt_update hcells, Function.update_of_ne hne, hg],
        by rw [Function.update_of_ne e, htbl], hl⟩
  absent id' hnone := by
    dsimp only at hnone
    by_cases e : id' = id
    · rw [e, Function.update_self]
    · rw [Function.update_of_ne e] at hnone ⊢
      exact hr.absent id' hnone
  owner q hq := by
    obtain ⟨id', hid'⟩ := hr.owner q hq
    have e : id' ≠ id := by
      rintro rfl
      rw [hp] at hid'
      exact hps (Option.some.inj hid' ▸ hq)
    exact ⟨id', (Function.update_of_ne e ..).trans hid'⟩
  gone q hq := by
    rw [hfresh]
    exact hr.gone q hq
  once := hr.once

/-! ## The operations -/

theorem setHst_spec (hr : Rep t ps tbl) (hp : t.clis id = some p) {h : Hst}
    (hl : h.linked = true ↔ p ∈ ps) :
    ∃ t', t.setHst p h = some t' ∧ t'.clis = t.clis ∧ t'.heap.fresh = t.heap.fresh ∧
      Rep t' ps (Function.update tbl id (some h)) := by
  obtain ⟨g, hg, -, -⟩ := hr.node id p hp
  obtain ⟨heap, e, hfresh, hval, hchain⟩ := Heap.setVal_eq (fun n => { n with hst := h }) hg
  refine ⟨{ t with heap }, by rw [setHst, e]; rfl, rfl, hfresh, ?_⟩
  refine hr.update hp (hchain _ _ hr.chain) hr.nodup hval (fun _ _ => Iff.rfl) hl
    (fun q hq => ?_) hr.once
  rw [hfresh]
  exact hr.gone q hq

theorem Rep.not_mem {as bs : List Nat} (hr : Rep t (as ++ p :: bs) tbl) : p ∉ as := by
  intro ha
  have hnd := hr.nodup
  rw [List.nodup_append] at hnd
  exact hnd.2.2 p ha p List.mem_cons_self rfl

theorem leave_heap (hr : Rep t ps tbl) (hp : t.clis id = some p) (hmem : p ∈ ps) (h : Hst) :
    ∃ heap₁ heap₂ head,
      (t.heap.modify p fun n => { n with val := { n.val with hst := h } }) = some heap₁ ∧
      deleteFromList heap₁ p t.hstH = some (heap₂, head) ∧ Chain heap₂ head (ps.erase p) ∧
      heap₂.valAt = Function.update t.heap.valAt p (some ⟨id, h⟩) ∧
      heap₂.fresh = t.heap.fresh := by
  obtain ⟨g, hg, -, -⟩ := hr.node id p hp
  obtain ⟨heap₁, e₁, hfresh₁, hval₁, hchain⟩ := Heap.setVal_eq (fun n => { n with hst := h }) hg
  obtain ⟨as, bs, rfl⟩ := List.append_of_mem hmem
  have hnot := hr.not_mem
  obtain ⟨heap₂, head, e₂, hc, hval₂, hfresh₂⟩ :=
    deleteFromList_chain (hchain _ _ hr.chain) hr.nodup
  refine ⟨heap₁, heap₂, head, e₁, e₂, ?_, hval₂.trans hval₁, hfresh₂.trans hfresh₁⟩
  rwa [List.erase_append_right _ hnot, List.erase_cons_head]

theorem Rep.leave (hr : Rep t ps tbl) (hp : t.clis id = some p) (hmem : p ∈ ps) {h : Hst}
    (hl : h.linked = false) {heap : Heap TimerNode} {head : Option Nat}
    (hc : Chain heap head (ps.erase p))
    (hval : heap.valAt = Function.update t.heap.valAt p (some ⟨id, h⟩))
    (hfresh : heap.fresh = t.heap.fresh) :
    Rep ⟨heap, head, t.clis, t.unlinked ++ [p]⟩ (ps.erase p)
      (Function.update tbl id (some h)) := by
  obtain ⟨g, hg, -, -⟩ := hr.node id p hp
  have hself : p ∉ ps.erase p := fun h => (hr.nodup.mem_erase_iff.1 h).1 rfl
  refine hr.update hp hc (hr.nodup.erase p) hval (fun q hq => ?_) ?_ (fun q hq => ?_) ?_
  · rw [hr.nodup.mem_erase_iff]
    exact and_iff_right hq
  · simp [hl, hself]
  · rw [hfresh]
    rcases List.mem_append.1 hq with hq | hq
    · exact ⟨fun h => (hr.gone q hq).1 (List.mem_of_mem_erase h), (hr.gone q hq).2⟩
    · obtain rfl := List.mem_singleton.1 hq
      exact ⟨hself, Heap.lt_fresh_of_valAt hg⟩
  · refine List.nodup_append.2 ⟨hr.once, List.nodup_singleton p, fun q hq r hr' => ?_⟩
    obtain rfl := List.mem_singleton.1 hr'
    rintro rfl
    exact (hr.gone q hq).1 hmem

theorem leave_spec (hr : Rep t ps tbl) (hp : t.clis id = some p) (hmem : p ∈ ps) {h : Hst}
    (hl : h.linked = false) :
    ∃ t₁ t₂, t.setHst p h = some t₁ ∧ t₁.unlink p = some t₂ ∧ t₂.clis = t.clis ∧
      t₂.heap.fresh = t.heap.fresh ∧
      Rep t₂ (ps.erase p) (Function.update tbl id (some h)) := by
  obtain ⟨heap₁, heap₂, head, e₁, e₂, hc, hval, hfresh⟩ := leave_heap hr hp hmem h
  refine ⟨{ t with heap := heap₁ }, ⟨heap₂, head, t.clis, t.unlinked ++ [p]⟩, ?_, ?_, rfl, hfresh,
    hr.leave hp hmem hl hc hval hfresh⟩
  · rw [setHst, e₁]
    rfl
  · simp only [unlink, e₂]
    rfl

theorem Rep.insert (hr : Rep t ps tbl) (hid : t.clis id = none) (hnew : t.heap.fresh ∉ ps)
    {heap : Heap TimerNode} {h : Hst} (hl : h.linked = true)
    (hc : Chain heap (some t.heap.fresh) (t.heap.fresh :: ps))
    (hval : heap.valAt = Function.update t.heap.valAt t.heap.fresh (some ⟨id, h⟩))
    (hfresh : heap.fresh = t.heap.fresh + 1) :
    Rep ⟨heap, some t.heap.fresh, Function.update t.clis id (some t.heap.fresh), t.unlinked⟩
      (t.heap.fresh :: ps) (Function.update tbl id (some h)) where
  chain := hc
  nodup := List.nodup_cons.2 ⟨hnew, hr.nodup⟩
  -- The address is fresh, so it is that of no other client.
  node id' p' hp' := by
    dsimp only at hp'
    by_cases e : id' = id
    · subst e
      rw [Function.update_self] at hp'
      obtain rfl := Option.some.inj hp'
      exact ⟨h, by rw [hval, Function.update_self], Function.update_self ..,
        iff_of_true hl List.mem_cons_self⟩
    · rw [Function.update_of_ne e] at hp'
      obtain ⟨g, hg, htbl, hgl⟩ := hr.node id' p' hp'
      have hne : p' ≠ t.heap.fresh := Nat.ne_of_lt (Heap.lt_fresh_of_valAt hg)
      refine ⟨g, by rw [hval, Function.update_of_ne hne, hg], by rw [Function.update_of_ne e, htbl],
        hgl.trans ?_⟩
      rw [List.mem_cons, or_iff_right hne]
  absent id' hnone := by
    dsimp only at hnone
    have e : id' ≠ id := by
      rintro rfl
      rw [Function.update_self] at hnone
      cases hnone
    rw [Function.update_of_ne e] at hnone ⊢
    exact hr.absent id' hnone
  owner q hq := by
    rcases List.mem_cons.1 hq with rfl | hq
    · exact ⟨id, Function.update_self ..⟩
    · obtain ⟨id', hid'⟩ := hr.owner q hq
      have e : id' ≠ id := by
        rintro rfl
        rw [hid] at hid'
        cases hid'
      exact ⟨id', (Function.update_of_ne e ..).trans hid'⟩
  gone q hq := by
    obtain ⟨hq', hlt⟩ := hr.gone q hq
    refine ⟨?_, hfresh ▸ Nat.lt_succ_of_lt hlt⟩
    rw [List.mem_cons, not_or]
    exact ⟨Nat.ne_of_lt hlt, hq'⟩
  once := hr.once

theorem cliInit_spec (hr : Rep t ps tbl) (hid : t.clis id = none) (handshake : Int) :
    ∃ t' qs, t.cliInit handshake id = some t' ∧
      Rep t' qs (Function.update tbl id (some (Hst.start handshake))) := by
  have hval₀ := t.heap.valAt_alloc ⟨id, ⟨0, false⟩⟩
  obtain ⟨hnew, hchain₀⟩ := hr.chain.alloc ⟨id, ⟨0, false⟩⟩
  obtain ⟨heap₁, e₁, hfresh₁, hval₁, hkeep⟩ :=
    Heap.setVal_eq (h := (t.heap.alloc ⟨id, ⟨0, false⟩⟩).1) (p := t.heap.fresh)
      (v := ⟨id, ⟨0, false⟩⟩) (fun n => { n with hst := Hst.start handshake })
      (by rw [hval₀, Function.update_self])
  obtain ⟨heap₂, e₂, hchain₂, hval₂, hfresh₂⟩ :=
    insertToHeader_chain (hkeep _ _ hchain₀) (by rw [hval₁, Function.update_self]) hnew hr.nodup
  refine ⟨_, _, ?_, hr.insert hid hnew (h := Hst.start handshake) rfl hchain₂ ?_
    (hfresh₂.trans hfresh₁)⟩
  · simp only [cliInit, setHst]
    rw [show (t.heap.alloc ⟨id, ⟨0, false⟩⟩).2 = t.heap.fresh from rfl, e₁]
    simp only [Option.bind_eq_bind, Option.bind_some, Option.pure_def, e₂]
  · rw [hval₂, hval₁, hval₀, Function.update_idem]

theorem cliDestroy_spec (hr : Rep t ps tbl) (hp : t.clis id = some p) :
    ∃ t', t.cliDestroy p = some t' ∧ t'.clis = Function.update t.clis id none ∧
      t'.heap.fresh = t.heap.fresh ∧ Rep t' (ps.erase p) (Function.update tbl id none) := by
  obtain ⟨h, hv, htbl, hl⟩ := hr.node id p hp
  by_cases hmem : p ∈ ps
  · obtain ⟨heap₁, heap₂, head, e₁, e₂, hc, hval, hfresh⟩ :=
      leave_heap hr hp hmem { h with linked := false }
    have hr₂ := hr.leave hp hmem (h := { h with linked := false }) rfl hc hval hfresh
    obtain ⟨n, hn, -⟩ : ∃ n, heap₂.cells p = some n ∧ n.val = _ :=
      Option.map_eq_some_iff.1 (by rw [← Heap.valAt, hval, Function.update_self])
    obtain ⟨heap₃, e₃, hcells, hfresh₃⟩ := Heap.free_eq hn
    have hgone := hr₂.remove hp
      (fun h => (hr.nodup.mem_erase_iff.1 h).1 rfl) hcells hfresh₃
    rw [Function.update_idem] at hgone
    refine ⟨_, ?_, rfl, hfresh₃.trans hfresh, hgone⟩
    simp [cliDestroy, hv, hl.2 hmem, setHst, e₁, unlink, e₂, e₃]
  · obtain ⟨n, hn, -⟩ := Option.map_eq_some_iff.1 hv
    obtain ⟨heap', e, hcells, hfresh⟩ := Heap.free_eq hn
    have hgone := hr.remove hp hmem hcells hfresh
    rw [List.erase_of_not_mem hmem]
    refine ⟨_, ?_, rfl, hfresh, hgone⟩
    simp [cliDestroy, hv, hl.not.2 hmem, e]

theorem touch_spec (keepalive : Int) (hr : Rep t ps tbl) (hp : t.clis id = some p) :
    ∃ t', t.touch keepalive p = some t' ∧ t'.clis = t.clis ∧
      Rep t' ps (Function.update tbl id ((tbl id).map (Hst.touch keepalive))) := by
  obtain ⟨h, hv, htbl, hl⟩ := hr.node id p hp
  rw [touch, hv, htbl, Option.map_some, Hst.touch]
  simp only [Option.bind_eq_bind, Option.bind_some]
  split_ifs with hk
  · obtain ⟨t', e, hclis, -, hr'⟩ :=
      setHst_spec hr hp (h := { h with alive := idleMs keepalive }) hl
    exact ⟨t', e, hclis, hr'⟩
  · refine ⟨t, rfl, rfl, ?_⟩
    rwa [← htbl, Function.update_eq_self]

theorem startIdle_spec (keepalive : Int) (hr : Rep t ps tbl) (hp : t.clis id = some p) :
    ∃ t' qs, t.startIdle keepalive p = some t' ∧
      Rep t' qs (Function.update tbl id ((tbl id).map (Hst.startIdle keepalive))) := by
  obtain ⟨h, hv, htbl, hl⟩ := hr.node id p hp
  rw [startIdle, hv, htbl, Option.map_some, Hst.startIdle]
  simp only [Option.bind_eq_bind, Option.bind_some]
  split_ifs with hk hlinked
  · obtain ⟨t', e, -, -, hr'⟩ := setHst_spec hr hp (h := { h with alive := idleMs keepalive }) hl
    exact ⟨t', ps, e, hr'⟩
  · obtain ⟨t₁, t₂, e₁, e₂, -, -, hr'⟩ := leave_spec hr hp (hl.1 hlinked) (h := ⟨0, false⟩) rfl
    exact ⟨t₂, _, by rw [e₁]; exact e₂, hr'⟩
  · refine ⟨t, ps, rfl, ?_⟩
    rwa [← htbl, Function.update_eq_self]

/-! ## The loops -/

/-- A sweep of the nodes `qs` that are still ahead. -/
theorem sweepLoop_spec (as : List Nat) {qs : List Nat} {k : Nat} (hr : Rep t (as ++ qs) tbl)
    (hk : qs.length ≤ k) :
    ∃ t' tbl', sweepLoop k t qs.head? = some t' ∧ t'.clis = t.clis ∧ Rep t' (as ++ qs) tbl' ∧
      ∀ id p, t.clis id = some p →
        tbl' id = if p ∈ qs then (tbl id).map Hst.sweep else tbl id := by
  induction qs generalizing as t tbl k with
  | nil => exact ⟨t, tbl, by cases k <;> rfl, rfl, hr, fun _ _ _ => rfl⟩
  | cons p qs ih =>
    cases k with
    | zero => simp at hk
    | succ k =>
      obtain ⟨id₀, hid₀⟩ := hr.owner p (by simp)
      obtain ⟨h, hv, htbl, hl⟩ := hr.node id₀ p hid₀
      have hlinked : h.linked = true := hl.2 (by simp)
      have hsweep : h.sweep = { h with
          alive := if h.alive ≤ timerPeriod then 0 else h.alive - timerPeriod } := by
        rw [Hst.sweep, if_pos hlinked]
      obtain ⟨t₁, e₁, hclis, -, hr₁⟩ := setHst_spec hr hid₀ (h := h.sweep)
        (by rw [Hst.linked_sweep, hl])
      obtain ⟨n, hn, hnext⟩ := hr₁.chain.next
      rw [List.append_cons] at hr₁
      obtain ⟨t', tbl', e', hclis', hr', hrest⟩ := ih _ hr₁ (Nat.le_of_succ_le_succ hk)
      refine ⟨t', tbl', ?_, hclis'.trans hclis, by rwa [List.append_cons], fun id q hid => ?_⟩
      · simp only [List.head?_cons, sweepLoop, hv, Option.bind_eq_bind, Option.bind_some]
        rw [← hsweep, e₁]
        simp only [Option.bind_some, hn, hnext, e']
      · rw [hrest id q (hclis ▸ hid)]
        by_cases e : id = id₀
        · -- The node just swept is not met again.
          subst e
          obtain rfl := Option.some.inj (hid₀.symm.trans hid)
          have hnd := hr.nodup
          rw [List.nodup_append, List.nodup_cons] at hnd
          rw [if_neg hnd.2.1.1, if_pos List.mem_cons_self, Function.update_self, htbl,
            Option.map_some]
        · have hq : q ≠ p := fun eq => e (hr.clis_inj hid₀ (eq ▸ hid))
          rw [Function.update_of_ne e]
          simp only [List.mem_cons, or_iff_right hq]

def unexpired (tbl : Timers) : Timers := fun id => (tbl id).filter fun h => !h.expired

theorem unexpired_update_none {h : Hst} (htbl : tbl id = some h) (hexp : h.expired = true) :
    unexpired (Function.update tbl id none) = unexpired tbl := by
  funext id'
  unfold unexpired
  by_cases e : id' = id
  · subst e
    simp [htbl, hexp, Option.filter_some]
  · rw [Function.update_of_ne e]

/-- The event handler on the nodes `qs` that are still ahead; those behind are not expired. -/
theorem eventLoop_spec (as : List Nat) {qs : List Nat} {k : Nat} (hr : Rep t (as ++ qs) tbl)
    (hk : qs.length ≤ k)
    (has : ∀ id p h, t.clis id = some p → p ∈ as → tbl id = some h → h.expired = false) :
    ∃ t' ps', eventLoop k t qs.head? = some t' ∧ Rep t' ps' (unexpired tbl) := by
  induction qs generalizing as t tbl k with
  | nil =>
    refine ⟨t, as, by cases k <;> rfl, ?_⟩
    rw [List.append_nil] at hr
    -- A timer that is not in the list has not expired either.
    have hall : unexpired tbl = tbl := by
      funext id
      unfold unexpired
      cases hid : t.clis id with
      | none => rw [hr.absent id hid, Option.filter_none]
      | some p =>
        obtain ⟨h, -, htbl, hl⟩ := hr.node id p hid
        have hexp : h.expired = false := by
          by_cases hp : p ∈ as
          · exact has id p h hid hp htbl
          · simp [Hst.expired, hl.not.2 hp]
        simp [htbl, hexp, Option.filter_some]
    rwa [hall]
  | cons p qs ih =>
    cases k with
    | zero => simp at hk
    | succ k =>
      have hk' := Nat.le_of_succ_le_succ hk
      obtain ⟨id₀, hid₀⟩ := hr.owner p (by simp)
      obtain ⟨h, hv, htbl, hl⟩ := hr.node id₀ p hid₀
      have hmem : p ∈ as ++ p :: qs := by simp
      have hnot := hr.not_mem
      obtain ⟨n, hn, hnext⟩ := hr.chain.next
      have hval : n.val = ⟨id₀, h⟩ := by
        rw [Heap.valAt, hn, Option.map_some] at hv
        exact Option.some.inj hv
      by_cases halive : h.alive = 0
      · have hexp : h.expired = true := by simp [Hst.expired, hl.2 hmem, halive]
        obtain ⟨t₁, t₂, e₁, e₂, hclis₂, -, hr₂⟩ :=
          leave_spec hr hid₀ hmem (h := { h with linked := false }) rfl
        obtain ⟨t₃, e₃, hclis₃, -, hr₃⟩ := cliDestroy_spec hr₂ (hclis₂ ▸ hid₀)
        have herase : ((as ++ p :: qs).erase p).erase p = as ++ qs := by
          rw [List.erase_of_not_mem fun h => (hr.nodup.mem_erase_iff.1 h).1 rfl,
            List.erase_append_right _ hnot, List.erase_cons_head]
        rw [herase, Function.update_idem] at hr₃
        obtain ⟨t', ps', e', hr'⟩ := ih _ hr₃ hk' fun id q g hid hq hg => by
          have e : id ≠ id₀ := by
            rintro rfl
            rw [hclis₃, Function.update_self] at hid
            cases hid
          rw [hclis₃, Function.update_of_ne e, hclis₂] at hid
          rw [Function.update_of_ne e] at hg
          exact has id q g hid hq hg
        rw [unexpired_update_none htbl hexp] at hr'
        refine ⟨t', ps', ?_, hr'⟩
        simp only [List.head?_cons, eventLoop, hn, hval, if_pos halive, Option.bind_eq_bind,
          Option.bind_some, e₁, e₂, e₃, hnext, e']
      · have hr' : Rep t ((as ++ [p]) ++ qs) tbl := by rwa [List.append_assoc]
        obtain ⟨t', ps', e', hrep⟩ := ih _ hr' hk' fun id q g hid hq hg => by
          rcases List.mem_append.1 hq with hq | hq
          · exact has id q g hid hq hg
          · obtain rfl := List.mem_singleton.1 hq
            obtain rfl := hr.clis_inj hid₀ hid
            obtain rfl := Option.some.inj (htbl.symm.trans hg)
            simp [Hst.expired, halive]
        refine ⟨t', ps', ?_, hrep⟩
        simp only [List.head?_cons, eventLoop, hn, hval, if_neg halive, Option.bind_eq_bind,
          Option.bind_some, hnext, e']

/-! ## Runs -/

/-- **One event:** it makes no fault and does to the timers what `TimerEvent.step` says. -/
theorem step_spec (keepalive handshake : Int) (hr : Rep t ps tbl) (e : TimerEvent) :
    ∃ t' qs, t.step keepalive handshake e = some t' ∧
      Rep t' qs (e.step keepalive handshake tbl) := by
  have hsome (id : UInt32) : (tbl id).isSome = (t.clis id).isSome := by
    cases hid : t.clis id with
    | none => rw [hr.absent id hid]; rfl
    | some p =>
      obtain ⟨h, -, htbl, -⟩ := hr.node id p hid
      rw [htbl]; rfl
  cases e with
  | accepted id =>
    simp only [step, TimerEvent.step, hsome]
    cases hid : t.clis id with
    | some p => exact ⟨t, ps, rfl, hr⟩
    | none => exact cliInit_spec hr hid handshake
  | frame id f =>
    simp only [step, TimerEvent.step]
    cases hid : t.clis id with
    | none =>
      refine ⟨t, ps, rfl, ?_⟩
      rwa [hr.absent id hid, Option.map_none, ← hr.absent id hid, Function.update_eq_self]
    | some p =>
      obtain ⟨t₁, e₁, hclis, hr₁⟩ := touch_spec keepalive hr hid
      simp only [Option.bind_eq_bind, e₁, Option.bind_some]
      by_cases hf : getMsgType f = MsgType.serviceInfo
      · obtain ⟨t₂, qs, e₂, hr₂⟩ := startIdle_spec keepalive hr₁ (hclis ▸ hid)
        refine ⟨t₂, qs, by rw [if_pos hf, e₂], ?_⟩
        rw [Function.update_idem, Function.update_self, Option.map_map] at hr₂
        rwa [show Hst.frame keepalive f = Hst.startIdle keepalive ∘ Hst.touch keepalive from
          funext fun h => if_pos hf]
      · refine ⟨t₁, ps, by rw [if_neg hf], ?_⟩
        rwa [show Hst.frame keepalive f = Hst.touch keepalive from funext fun h => if_neg hf]
  | sweep =>
    obtain ⟨t', tbl', e', hclis, hr', hswept⟩ :=
      sweepLoop_spec [] hr (hr.chain.length_le_fresh hr.nodup)
    -- Timers whose nodes are not in the list do not run.
    have htbl' : tbl' = fun id => (tbl id).map Hst.sweep := by
      funext id
      cases hid : t.clis id with
      | none => rw [hr.absent id hid, hr'.absent id (by rw [hclis, hid]), Option.map_none]
      | some p =>
        obtain ⟨h, -, htbl, hl⟩ := hr.node id p hid
        rw [hswept id p hid]
        split_ifs with hp
        · rfl
        · simp [htbl, Hst.sweep, hl.not.2 hp]
    rw [htbl'] at hr'
    exact ⟨t', ps, by rw [step, hr.chain.head_eq, e'], hr'⟩
  | event =>
    obtain ⟨t', qs, e', hr'⟩ := eventLoop_spec [] hr (hr.chain.length_le_fresh hr.nodup)
      fun _ _ _ _ h => absurd h List.not_mem_nil
    exact ⟨t', qs, by rw [step, hr.chain.head_eq, e'], hr'⟩
  | closed id =>
    simp only [step, TimerEvent.step]
    cases hid : t.clis id with
    | none =>
      refine ⟨t, ps, rfl, ?_⟩
      rwa [← hr.absent id hid, Function.update_eq_self]
    | some p =>
      obtain ⟨t', e', -, -, hr'⟩ := cliDestroy_spec hr hid
      exact ⟨t', _, e', hr'⟩

theorem run_spec (keepalive handshake : Int) (hr : Rep t ps tbl) (es : List TimerEvent) :
    ∃ t' qs, t.run keepalive handshake es = some t' ∧
      Rep t' qs (Runs.run (TimerEvent.step keepalive handshake) tbl es) := by
  induction es generalizing t ps tbl with
  | nil => exact ⟨t, ps, rfl, hr⟩
  | cons e es ih =>
    obtain ⟨t₁, ps₁, e₁, hr₁⟩ := step_spec keepalive handshake hr e
    obtain ⟨t', qs, e', hr'⟩ := ih hr₁
    refine ⟨t', qs, ?_, hr'⟩
    rw [run, List.foldlM_cons, e₁]
    exact e'

end TimerList

/-- **The timer list is sound.** Any sequence of events runs without an access to a freed node.
Afterwards the list is a well formed doubly linked list without repetition, a client's flag is set
exactly if its node is in the list, every node of the list is that of a client in the table, and
no node was ever unlinked twice. -/
theorem timerList_ok (keepalive handshake : Int) (es : List TimerEvent) :
    ∃ t ps, TimerList.init.run keepalive handshake es = some t ∧
      Chain t.heap t.hstH ps ∧ ps.Nodup ∧
      (∀ id p, t.clis id = some p →
        ∃ h, t.heap.valAt p = some ⟨id, h⟩ ∧ (h.linked = true ↔ p ∈ ps)) ∧
      (∀ p ∈ ps, ∃ id, t.clis id = some p) ∧ t.unlinked.Nodup := by
  obtain ⟨t, ps, e, hr⟩ := TimerList.run_spec keepalive handshake TimerList.rep_init es
  refine ⟨t, ps, e, hr.chain, hr.nodup, fun id p hp => ?_, hr.owner, hr.once⟩
  obtain ⟨h, hv, -, hl⟩ := hr.node id p hp
  exact ⟨h, hv, hl⟩

/-- The list of a server: the events of any run of the server leave a list that holds the timers
of its clients. -/
theorem World.timerList_run (net : Nat → Nat → SendStep) (s : Server β) (ops : List ServerOp) :
    ∃ t ps, TimerList.init.run s.keepaliveTimeout s.handshakeTimeout
        ((World.init s).timerTrace net ops) = some t ∧
      t.Rep ps ((Runs.run (World.step net) (World.init s) ops).view Client.hst) := by
  rw [timers_run (tableOk_init s)]
  exact TimerList.run_spec _ _ TimerList.rep_init _

end Ssn
