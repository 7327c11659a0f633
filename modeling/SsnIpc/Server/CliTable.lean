import SsnIpc.ListMacros
import SsnIpc.Server.Poll

/-!
# The client table in memory

`server->clis` is an array of 64 headers of doubly linked lists. A client hangs in the list its id
hashes to. Ids come from a counter of 32 bits, which skips ids that are in use. Clients come with
an accepted connection, unless there are too many or there is no memory, and go while the lists are
walked for input and when their timers run out.

**Theorem (`cliTable_ok`).** In every run of a server that is polled the lists are well formed,
every client hangs in the list of its id and in no other, ids are distinct and lead to their
clients, there are no more clients than allowed, a connection that is refused leaves the table as
it was, and the search for a new id ends.

`IdTable` is the table without its memory: the ids in the buckets and the counter. Its events are
what polls do to it (`TableEvent.step`); a server runs them (`World.idTable_run`), and so does the
memory (`CliTable.step_spec`), through one list of nodes per bucket (`CliTable.Rep`).
-/

namespace Ssn

open Dll

variable {β : Type*}

/-! ## Tables of ids -/

namespace IdTable

/-- Ids stand in their buckets, once. -/
def Wf (T : IdTable) : Prop := Buckets.Wf (fun k => k) cliHash T.ids

def all (T : IdTable) : List UInt32 := Buckets.toList cliHashSize T.ids

/-- The first id from the counter on that is not in use, and the new counter, within a number of
tries. -/
def newid (T : IdTable) : Nat → UInt32 → Option (UInt32 × UInt32)
  | 0, _ => none
  | n + 1, ncid =>
    if ncid ∈ T.ids (cliHash ncid) then T.newid n (ncid + 1) else some (ncid, ncid + 1)

def insert (T : IdTable) (id ncid : UInt32) : IdTable :=
  ⟨Buckets.insert (fun k => k) cliHash T.ids id, ncid⟩

def erase (T : IdTable) (id : UInt32) : IdTable :=
  { T with ids := Buckets.erase (fun k => k) cliHash T.ids id }

/-- All clients go but those that `R` holds of. -/
def filter (T : IdTable) (R : UInt32 → Bool) : IdTable :=
  { T with ids := fun i => (T.ids i).filter R }

/-- A connection is refused if there are too many or there is no memory. -/
def connect (max : UInt32) (memory : Bool) (T : IdTable) : IdTable :=
  if max.toNat ≤ T.all.length ∨ memory = false then T
  else (T.newid (2 ^ 32) T.ncid).elim T fun r => T.insert r.1 r.2

variable {T : IdTable} {n m : Nat} {c id : UInt32} {r : UInt32 × UInt32}

theorem newid_free (h : T.newid n c = some r) : r.1 ∉ T.ids (cliHash r.1) := by
  induction n generalizing c with
  | zero => cases h
  | succ n ih =>
    rw [newid] at h
    split_ifs at h with hc
    · exact ih h
    · obtain rfl := Option.some.inj h
      exact hc

theorem newid_mono (h : T.newid n c = some r) (hle : n ≤ m) : T.newid m c = some r := by
  induction n generalizing m c with
  | zero => cases h
  | succ n ih =>
    obtain ⟨m, rfl⟩ := Nat.exists_eq_add_of_le' (Nat.le_trans (Nat.le_add_left 1 n) hle)
    rw [newid] at h ⊢
    split_ifs at h ⊢ with hc
    · exact ih h (Nat.le_of_succ_le_succ hle)
    · exact h

theorem mem_of_newid (h : T.newid n c = none) {k : Nat} (hk : k < n) :
    c + UInt32.ofNat k ∈ T.ids (cliHash (c + UInt32.ofNat k)) := by
  induction n generalizing c k with
  | zero => omega
  | succ n ih =>
    rw [newid] at h
    split_ifs at h with hc
    cases k with
    | zero => simpa using hc
    | succ k =>
      have hnext := ih h (Nat.lt_of_succ_lt_succ hk)
      rwa [UInt32.add_assoc, UInt32.add_comm 1, ← UInt32.ofNat_one, ← UInt32.ofNat_add] at hnext

theorem nodup_numbers (c : UInt32) (hn : n ≤ 2 ^ 32) :
    ((List.range n).map fun k => c + UInt32.ofNat k).Nodup := by
  refine List.Nodup.map_on (fun j hj k hk e => ?_) List.nodup_range
  rw [List.mem_range] at hj hk
  have hofNat : UInt32.ofNat j = UInt32.ofNat k := (UInt32.add_right_inj c).1 e
  have htoNat := congrArg UInt32.toNat hofNat
  rwa [UInt32.toNat_ofNat_of_lt' (by unfold UInt32.size; omega),
    UInt32.toNat_ofNat_of_lt' (by unfold UInt32.size; omega)] at htoNat

/-- **The search for an id ends** after at most as many tries as there are clients, and one. -/
theorem exists_newid (hwf : T.Wf) (hlen : T.all.length < n) (hn : n ≤ 2 ^ 32) :
    ∃ r, T.newid n c = some r := by
  by_contra hnone
  have hused : T.newid n c = none := Option.eq_none_iff_forall_ne_some.2 fun r hr => hnone ⟨r, hr⟩
  have hsub : ((List.range n).map fun k => c + UInt32.ofNat k) ⊆ T.all := by
    intro x hx
    obtain ⟨k, hk, rfl⟩ := List.mem_map.1 hx
    exact (Buckets.Wf.mem_toList hwf cliHash_lt).2 (mem_of_newid hused (List.mem_range.1 hk))
  have hle := ((nodup_numbers c hn).subperm hsub).length_le
  rw [List.length_map, List.length_range] at hle
  omega

/-- Ids stand in their buckets, and there are no more than allowed. -/
structure Ok (max : UInt32) (T : IdTable) : Prop where
  wf : T.Wf
  bounded : T.all.length ≤ max.toNat

theorem Wf.filter (h : T.Wf) (R : UInt32 → Bool) : (T.filter R).Wf where
  placed i a ha := h.placed i a (List.mem_of_mem_filter ha)
  nodup i := (h.nodup i).sublist (List.filter_sublist.map _)

theorem Wf.erase (h : T.Wf) (id : UInt32) : (T.erase id).Wf := Buckets.Wf.erase h

theorem Wf.erase_eq_filter (h : T.Wf) (id : UInt32) : T.erase id = T.filter fun k => k ≠ id :=
  congrArg (fun ids => (⟨ids, T.ncid⟩ : IdTable)) (Buckets.Wf.erase_eq_filter h id)

theorem filter_filter (R R' : UInt32 → Bool) :
    (T.filter R).filter R' = T.filter fun id => R id && R' id := by
  unfold filter
  congr 1
  funext i
  rw [List.filter_filter]
  exact List.filter_congr fun a _ => Bool.and_comm ..

theorem filter_true : T.filter (fun _ => true) = T := by
  unfold filter
  congr 1
  funext i
  exact List.filter_eq_self.2 fun _ _ => rfl

theorem length_filter_le (R : UInt32 → Bool) : (T.filter R).all.length ≤ T.all.length :=
  (Buckets.toList_sublist fun _ => List.filter_sublist).length_le

theorem length_insert (id ncid : UInt32) : (T.insert id ncid).all.length = T.all.length + 1 := by
  have hperm : (Buckets.toList cliHashSize (Buckets.insert (fun k => k) cliHash T.ids id)).Perm
      (id :: T.all) := by
    refine Buckets.perm_toList_insert ?_
    exact cliHash_lt id
  exact hperm.length_eq

theorem Wf.insert (h : T.Wf) (hid : id ∉ T.ids (cliHash id)) (ncid : UInt32) :
    (T.insert id ncid).Wf := by
  refine Buckets.Wf.insert h ?_
  rw [Buckets.find, List.find?_eq_none]
  intro k hk
  rw [decide_eq_true_eq]
  rintro rfl
  exact hid hk

namespace Ok

variable {max : UInt32}

theorem filter (h : T.Ok max) (R : UInt32 → Bool) : (T.filter R).Ok max :=
  ⟨h.wf.filter R, Nat.le_trans (length_filter_le R) h.bounded⟩

theorem erase (h : T.Ok max) (id : UInt32) : (T.erase id).Ok max := by
  rw [h.wf.erase_eq_filter]
  exact h.filter _

/-- **A connection is refused, or a client is added under an id that is free.** The search never
fails. -/
theorem connect_cases (h : T.Ok max) (memory : Bool) :
    (max.toNat ≤ T.all.length ∨ memory = false) ∧ T.connect max memory = T ∨
    T.all.length < max.toNat ∧ memory = true ∧ ∃ id ncid,
      T.newid (T.all.length + 1) T.ncid = some (id, ncid) ∧
      T.newid (2 ^ 32) T.ncid = some (id, ncid) ∧ id ∉ T.ids (cliHash id) ∧
      T.connect max memory = T.insert id ncid := by
  by_cases hno : max.toNat ≤ T.all.length ∨ memory = false
  · exact Or.inl ⟨hno, by rw [connect, if_pos hno]⟩
  · have hyes := not_or.1 hno
    have hlt : T.all.length + 1 ≤ 2 ^ 32 := by
      have := max.toNat_lt
      omega
    obtain ⟨r, hr⟩ := exists_newid (c := T.ncid) h.wf (Nat.lt_succ_self _) hlt
    have hr' := newid_mono hr hlt
    refine Or.inr ⟨Nat.lt_of_not_le hyes.1, by simpa using hyes.2, r.1, r.2, hr, hr',
      newid_free hr, ?_⟩
    rw [connect, if_neg hno, hr', Option.elim_some]

theorem connect (h : T.Ok max) (memory : Bool) : (T.connect max memory).Ok max := by
  rcases h.connect_cases memory with ⟨-, e⟩ | ⟨hlt, -, id, ncid, -, -, hfree, e⟩
  · rwa [e]
  · rw [e]
    refine ⟨h.wf.insert hfree ncid, ?_⟩
    rw [length_insert]
    exact hlt

end Ok

end IdTable

inductive TableEvent
  /-- The lists are walked for input, and the connections of some clients end. -/
  | input (ends : UInt32 → Bool)
  /-- A connection is accepted; there may be no memory for a client. -/
  | connection (memory : Bool)
  /-- The timers of these clients ran out. -/
  | expire (ids : List UInt32)

/-- One event, with at most `max` clients. -/
def TableEvent.step (max : UInt32) (T : IdTable) : TableEvent → IdTable
  | .input ends => T.filter fun id => !ends id
  | .connection memory => T.connect max memory
  | .expire ids => ids.foldl IdTable.erase T

theorem IdTable.Ok.step {max : UInt32} {T : IdTable} (h : T.Ok max) (e : TableEvent) :
    (e.step max T).Ok max := by
  cases e with
  | input ends => exact h.filter _
  | connection memory => exact h.connect memory
  | expire ids => exact List.foldlRecOn _ _ h fun T hT id _ => hT.erase id

/-! ## A server runs the events -/

/-- Without memory for a client a connection is closed again. -/
def SessionOp.withMemory (memory : Bool) : SessionOp → SessionOp
  | .poll net p => .poll net { p with connection := if memory then p.connection else none }
  | op => op

namespace World

variable {net : Nat → Nat → SendStep} {w : World β} {id : UInt32}

/-- The events of a step: polls only have some. -/
def tableEvents (w : World β) : SessionOp × Bool → List TableEvent
  | (.poll net p, memory) =>
    let w₁ := w.server.clients.foldl (pollClient net p) w
    let w₂ := (if memory then p.connection else none).elim w₁ w₁.handleNewConnection
    .input (fun id => (w₁.server.cliFind id).isNone) ::
      ((if p.connection.isSome then [.connection memory] else []) ++
        [.expire (if w₂.server.evtPending then (w₂.server.clients.filter expired).map Client.id
          else [])])
  | _ => []

/-- One step, with memory for a new client or without. -/
def sessionWith (w : World β) (op : SessionOp × Bool) : World β := w.session (op.1.withMemory op.2)

def tableTrace (w : World β) : List (SessionOp × Bool) → List TableEvent
  | [] => []
  | op :: ops => w.tableEvents op ++ (w.sessionWith op).tableTrace ops

theorem wf_idTable : w.idTable.Wf ↔ w.Wf := Buckets.wf_keys

theorem all_idTable : w.idTable.all = w.server.clients.map Client.id := Buckets.toList_keys

theorem isSome_cliFind : (w.server.cliFind id).isSome = true ↔ id ∈ w.idTable.ids (cliHash id) :=
  Buckets.isSome_find

theorem idTable_cliDestroy : (w.cliDestroy id).idTable = w.idTable.erase id :=
  congrArg (fun ids => (⟨ids, w.server.ncid⟩ : IdTable)) (Buckets.keys_erase id)

theorem cliNewid_eq (n : Nat) (c : UInt32) : w.server.cliNewid n c = w.idTable.newid n c := by
  induction n generalizing c with
  | zero => rfl
  | succ n ih =>
    rw [Server.cliNewid, IdTable.newid, ih]
    simp only [isSome_cliFind]

theorem idTable_handleNewConnection (fd : Int) :
    (w.handleNewConnection fd).idTable = w.idTable.connect w.server.maxConnections true := by
  rw [handleNewConnection, IdTable.connect, all_idTable, List.length_map, cliNewid_eq]
  by_cases hmax : w.server.maxConnections.toNat ≤ w.server.clients.length
  · rw [if_pos hmax, if_pos (Or.inl hmax)]
  · rw [if_neg hmax, if_neg (by simp [hmax])]
    have hncid : w.idTable.ncid = w.server.ncid := rfl
    rw [hncid]
    cases w.idTable.newid (2 ^ 32) w.server.ncid with
    | none => rfl
    | some r =>
      exact congrArg (fun ids => (⟨ids, r.2⟩ : IdTable)) Buckets.keys_insert

theorem idTable_closeClient (cli : Client) :
    (w.closeClient cli).idTable = w.idTable.erase cli.id := by
  unfold closeClient
  rw [idTable_cliDestroy]
  split_ifs
  · rw [idTable_callOncli]
    rw [idTable_modifyCli (f := fun cli => { cli with onconn := false }) fun _ => rfl]
  · rfl

theorem idTable_takeChunk (buf : ByteMem.Bytes) (frames : List Frame) (recv : StreamCtx) :
    (w.takeChunk net id buf frames recv).idTable = w.idTable := by
  rw [takeChunk, idTable_modifyCli (f := fun c => { c with recv }) fun _ => rfl]
  refine List.foldlRecOn (motive := fun w' : World β => w'.idTable = w.idTable) _ _ rfl
    fun w' hw' f _ => ?_
  rw [idTable_input, hw']

def Shrinks (w w' : World β) : Prop := ∃ R, w'.idTable = w.idTable.filter R

theorem Shrinks.of_eq {w' : World β} (h : w'.idTable = w.idTable) : Shrinks w w' :=
  ⟨fun _ => true, by rw [h, IdTable.filter_true]⟩

theorem Shrinks.trans {w₁ w₂ w₃ : World β} (h₁ : Shrinks w₁ w₂) (h₂ : Shrinks w₂ w₃) :
    Shrinks w₁ w₃ := by
  obtain ⟨R, hR⟩ := h₁
  obtain ⟨R', hR'⟩ := h₂
  exact ⟨_, by rw [hR', hR, IdTable.filter_filter]⟩

/-- Which ones, the table itself tells. -/
theorem Shrinks.eq {w' : World β} (h : Shrinks w w') (hwf : w.Wf) :
    w'.idTable = w.idTable.filter fun id => (w'.server.cliFind id).isSome := by
  obtain ⟨R, hR⟩ := h
  rw [hR]
  unfold IdTable.filter
  congr 1
  funext i
  refine List.filter_congr fun id hid => ?_
  have hi : cliHash id = i := (wf_idTable.2 hwf).placed i id hid
  rw [Bool.eq_iff_iff, isSome_cliFind, hR, hi]
  simp [IdTable.filter, hid]

theorem shrinks_handleClientInput (h : w.TableOk) (r : RecvResult) :
    Shrinks w (w.handleClientInput net id r) := by
  rcases handleClientInput_cases net h id r with e | ⟨cli, -, -, e | ⟨buf, recv, -, e⟩⟩
  · exact .of_eq (by rw [e])
  · rw [e]
    exact ⟨_, by rw [idTable_closeClient, (wf_idTable.2 h.wf).erase_eq_filter]⟩
  · exact .of_eq (by rw [e, idTable_takeChunk])

theorem idTable_sendTo (msg : Message) : (w.sendTo net id msg).idTable = w.idTable := by
  unfold sendTo
  split_ifs
  · exact idTable_send msg
  · rfl

theorem idTable_call (c : ServerCall) : (w.step net c.op).idTable = w.idTable := by
  cases c with
  | peerClose id => exact idTable_modifyCli fun _ => rfl
  | publish url data =>
    rw [ServerCall.op, step, publish]
    split_ifs
    · refine List.foldlRecOn (motive := fun w' : World β => w'.idTable = w.idTable) _ _ rfl
        fun w' hw' cli _ => ?_
      unfold publishTo
      split_ifs
      · rw [idTable_cliSendmsg, hw']
      · exact hw'
    · rfl
  | response id status seqno data => exact idTable_sendTo _
  | message id url data =>
    rw [ServerCall.op, step, message]
    split_ifs
    · exact idTable_sendTo _
    · rfl

theorem shrinks_pollClients (h : w.TableOk) (p : PollInput) (cs : List Client) :
    Shrinks w (cs.foldl (pollClient net p) w) := by
  have hboth : (cs.foldl (pollClient net p) w).TableOk ∧
      Shrinks w (cs.foldl (pollClient net p) w) := by
    refine List.foldlRecOn (motive := fun w' : World β => w'.TableOk ∧ Shrinks w w') _ _
      ⟨h, .of_eq rfl⟩ fun w' hw' cli _ => ?_
    unfold pollClient
    cases p.ready cli.id with
    | none => exact hw'
    | some r =>
      refine List.foldlRecOn (motive := fun w' : World β => w'.TableOk ∧ Shrinks w w') _ _
        ⟨tableOk_step net hw'.1 (.clientInput cli.id r),
          hw'.2.trans (shrinks_handleClientInput hw'.1 r)⟩ fun w'' hw'' c _ => ?_
      exact ⟨tableOk_step net hw''.1 c.op, hw''.2.trans (.of_eq (idTable_call c))⟩
  exact hboth.2

theorem idTable_destroyAll (cs : List Client) :
    (w.destroyAll cs).idTable = (cs.map Client.id).foldl IdTable.erase w.idTable := by
  induction cs generalizing w with
  | nil => rfl
  | cons c cs ih =>
    rw [destroyAll, List.foldl_cons, ← destroyAll, ih, idTable_cliDestroy]
    rfl

theorem idTable_handleEventInput : w.handleEventInput.idTable =
    (if w.server.evtPending then (w.server.clients.filter expired).map Client.id else []).foldl
      IdTable.erase w.idTable := by
  by_cases hp : w.server.evtPending = true
  · rw [if_pos hp, handleEventInput_eq hp, idTable_destroyAll]
    rfl
  · rw [if_neg hp, handleEventInput, if_neg hp]
    rfl

theorem maxConnections_of_settings {w' : World β}
    (h : settings w'.server = settings w.server) :
    w'.server.maxConnections = w.server.maxConnections := by
  show (settings w'.server).maxConnections = (settings w.server).maxConnections
  rw [h]

/-- **Every step of a server does to the table what its events do.** -/
theorem idTable_sessionWith (h : w.TableOk) (op : SessionOp × Bool) :
    (w.sessionWith op).idTable =
      Runs.run (TableEvent.step w.server.maxConnections) w.idTable (w.tableEvents op) := by
  obtain ⟨op, memory⟩ := op
  cases op with
  | call net c => exact idTable_call c
  | timerSweep =>
    exact congrArg (fun ids => (⟨ids, w.server.ncid⟩ : IdTable)) (Buckets.keys_map id_sweepCli)
  | poll net p =>
    -- The clients' turns only remove ids; then a connection, and the timer's event last.
    generalize hclients : w.server.clients.foldl (pollClient net p) w = w₁
    have hinput : w₁.idTable = w.idTable.filter fun id => !(w₁.server.cliFind id).isNone := by
      rw [← hclients, (shrinks_pollClients h p w.server.clients).eq h.wf]
      simp only [Option.not_isNone]
    have hmax : w₁.server.maxConnections = w.server.maxConnections := by
      have hboth := pollClients_invariant
        (fun w' op (hw' : w'.TableOk ∧ settings w'.server = settings w.server) =>
          ⟨tableOk_step net hw'.1 op, (settings_step net hw'.1 op).trans hw'.2⟩)
        ⟨h, rfl⟩ p w.server.clients
      exact maxConnections_of_settings (hclients ▸ hboth.2)
    have hclients' : w.server.clients.foldl (pollClient net
        { p with connection := if memory then p.connection else none }) w = w₁ := hclients
    simp only [sessionWith, SessionOp.withMemory, session, poll, tableEvents, hclients, hclients',
      Runs.run_cons, Runs.run_append, Runs.run_nil]
    rw [idTable_handleEventInput]
    refine congrArg (fun T => List.foldl IdTable.erase T _) ?_
    rw [← hmax]
    change _ = Runs.run (TableEvent.step w₁.server.maxConnections) (w.idTable.filter _) _
    rw [← hinput]
    cases p.connection with
    | none => cases memory <;> rfl
    | some fd =>
      cases memory with
      | true => exact idTable_handleNewConnection fd
      | false =>
        show w₁.idTable = w₁.idTable.connect _ false
        rw [IdTable.connect, if_pos (Or.inr rfl)]

theorem tableOk_sessionWith (h : w.TableOk) (op : SessionOp × Bool) :
    (w.sessionWith op).TableOk := tableOk_session h _

theorem maxConnections_sessionWith (h : w.TableOk) (op : SessionOp × Bool) :
    (w.sessionWith op).server.maxConnections = w.server.maxConnections := by
  have hboth := session_invariant
    (fun net w' op (hw' : w'.TableOk ∧ settings w'.server = settings w.server) =>
      ⟨tableOk_step net hw'.1 op, (settings_step net hw'.1 op).trans hw'.2⟩)
    ⟨h, rfl⟩ (op.1.withMemory op.2)
  exact maxConnections_of_settings hboth.2

/-- **The table of a server is a run of `TableEvent.step`.** -/
theorem idTable_run (h : w.TableOk) (ops : List (SessionOp × Bool)) :
    (Runs.run sessionWith w ops).idTable =
      Runs.run (TableEvent.step w.server.maxConnections) w.idTable (w.tableTrace ops) := by
  induction ops generalizing w with
  | nil => rfl
  | cons op ops ih =>
    rw [Runs.run_cons, ih (tableOk_sessionWith h op), maxConnections_sessionWith h op,
      idTable_sessionWith h op, tableTrace, Runs.run_append]

end World

/-! ## The table in memory -/

/-- The clients of a server and their lists: the id of each, the headers and the counter. -/
structure CliTable where
  heap : Heap UInt32
  clis : Nat → Option Nat
  ncid : UInt32

namespace CliTable

def init : CliTable := ⟨.empty, fun _ => none, 0⟩

/-- `ssn_server_cli_find`. -/
def cliFind (t : CliTable) (id : UInt32) : Option (Option Nat) :=
  t.heap.find (fun k => k = id) t.heap.fresh (t.clis (cliHash id))

/-- `ssn_server_cli_newid`, within a number of turns. -/
def cliNewid : Nat → CliTable → Option (UInt32 × CliTable)
  | 0, _ => none
  | n + 1, t => do
    let id := t.ncid
    let t := { t with ncid := t.ncid + 1 }
    match ← t.cliFind id with
    | some _ => cliNewid n t
    | none => some (id, t)

/-- `ssn_server_cli_init` for the client at `p`, but for its timer. -/
def cliInit (t : CliTable) (p : Nat) : Option CliTable := do
  let (id, t) ← t.cliNewid (2 ^ 32)
  let heap ← t.heap.modify p fun n => { n with val := id }
  let (heap, header) ← insertToHeader heap p (t.clis (cliHash id))
  return { t with heap, clis := Function.update t.clis (cliHash id) header }

/-- `ssn_server_cli_destroy` for the client at `p`, but for its subscriptions and its timer. -/
def cliDestroy (t : CliTable) (p : Nat) : Option CliTable := do
  let id ← t.heap.valAt p
  let (heap, header) ← deleteFromList t.heap p (t.clis (cliHash id))
  let heap ← heap.free p
  return { t with heap, clis := Function.update t.clis (cliHash id) header }

/-- Count the clients of a list, from a node on. -/
def countFrom (heap : Heap UInt32) : Nat → UInt32 → Option Nat → Option UInt32
  | _, total, none => some total
  | 0, _, some _ => none
  | k + 1, total, some p => do
    let n ← heap.cells p
    countFrom heap k (total + 1) n.next

/-- `cli_total` in `ssn_server_handle_new_connection`. -/
def cliTotal (t : CliTable) : Option UInt32 :=
  (List.range cliHashSize).foldlM (fun total h => countFrom t.heap t.heap.fresh total (t.clis h)) 0

/-- `ssn_server_handle_new_connection` for an accepted connection. -/
def handleNewConnection (max : UInt32) (memory : Bool) (t : CliTable) : Option CliTable := do
  let total ← t.cliTotal
  if max ≤ total then return t
  else if memory then
    let (heap, p) := t.heap.alloc 0
    { t with heap }.cliInit p
  else return t

/-- The walk of `ssn_server_input_fds` through one list, from a node on. The next node is read
before `ssn_server_handle_client_input` may destroy the client. -/
def inputFrom (ends : UInt32 → Bool) : Nat → CliTable → Option Nat → Option CliTable
  | _, t, none => some t
  | 0, _, some _ => none
  | k + 1, t, some p => do
    let n ← t.heap.cells p
    let t ← if ends n.val then t.cliDestroy p else some t
    inputFrom ends k t n.next

def inputFds (ends : UInt32 → Bool) (t : CliTable) : Option CliTable :=
  (List.range cliHashSize).foldlM (fun t i => inputFrom ends t.heap.fresh t (t.clis i)) t

/-- The client with an id is destroyed, if there is one. -/
def expire (t : CliTable) (id : UInt32) : Option CliTable := do
  match ← t.cliFind id with
  | some p => t.cliDestroy p
  | none => some t

def step (max : UInt32) (t : CliTable) : TableEvent → Option CliTable
  | .input ends => t.inputFds ends
  | .connection memory => t.handleNewConnection max memory
  | .expire ids => ids.foldlM expire t

/-- Events one after the other, up to the first fault. -/
def run (max : UInt32) (t : CliTable) (es : List TableEvent) : Option CliTable :=
  es.foldlM (step max) t

/-! ## Memory and ids -/

/-- The memory holds the table `T`, with the nodes `L` in its lists and no others. -/
structure Rep (t : CliTable) (L : Nat → List (Nat × UInt32)) (T : IdTable) : Prop where
  lists : Lists t.heap t.clis L
  ids : ∀ i, (L i).map Prod.snd = T.ids i
  ncid : t.ncid = T.ncid
  owned : ∀ p, t.heap.cells p ≠ none → ∃ i, p ∈ Dll.ids (L i)

variable {t : CliTable} {L : Nat → List (Nat × UInt32)} {T : IdTable} {id : UInt32} {p : Nat}

theorem rep_init : Rep init (fun _ => []) ⟨fun _ => [], 0⟩ where
  lists := ⟨fun _ => rfl, fun _ => List.nodup_nil, fun _ _ _ _ h => absurd h List.not_mem_nil⟩
  ids _ := rfl
  ncid := rfl
  owned _ h := absurd rfl h

theorem cliFind_eq (hl : Lists t.heap t.clis L) (id : UInt32) :
    t.cliFind id = some (((L (cliHash id)).find? fun x => x.2 = id).map Prod.fst) :=
  Heap.find_seg _ (hl.seg _) (length_le_fresh (hl.seg _) (hl.nodup _))

theorem cliNewid_eq (hl : Lists t.heap t.clis L) (hids : ∀ i, (L i).map Prod.snd = T.ids i)
    (n : Nat) :
    t.cliNewid n = (T.newid n t.ncid).map fun r => (r.1, { t with ncid := r.2 }) := by
  induction n generalizing t with
  | zero => rfl
  | succ n ih =>
    have hfind := cliFind_eq (t := { t with ncid := t.ncid + 1 }) hl t.ncid
    have hmem : t.ncid ∈ T.ids (cliHash t.ncid) ↔
        ((L (cliHash t.ncid)).find? fun x => x.2 = t.ncid).isSome = true := by
      rw [← hids, List.find?_isSome, List.mem_map]
      simp
    simp only [cliNewid, Option.bind_eq_bind, hfind, Option.bind_some, IdTable.newid, hmem]
    cases hx : (L (cliHash t.ncid)).find? fun x => x.2 = t.ncid with
    | none => rfl
    | some x => exact ih (t := { t with ncid := t.ncid + 1 }) hl

theorem Rep.mem_ids (hr : Rep t L T) {i : Nat} (h : (p, id) ∈ L i) : id ∈ T.ids i := by
  rw [← hr.ids]
  exact List.mem_map_of_mem h

theorem Rep.ids_update (hr : Rep t L T) {i : Nat} {xs : List (Nat × UInt32)} {ids : List UInt32}
    (h : xs.map Prod.snd = ids) (j : Nat) :
    (Function.update L i xs j).map Prod.snd = Function.update T.ids i ids j := by
  by_cases hj : j = i
  · subst hj
    rw [Function.update_self, Function.update_self, h]
  · rw [Function.update_of_ne hj, Function.update_of_ne hj, hr.ids]

/-- No node leaves the list but those that are freed, and no node is made outside of it. -/
theorem Rep.owned_update (hr : Rep t L T) {heap : Heap UInt32} {i : Nat}
    {xs : List (Nat × UInt32)}
    (hkept : ∀ q ∈ Dll.ids (L i), heap.cells q ≠ none → q ∈ Dll.ids xs)
    (hold : ∀ q, q ∉ Dll.ids xs → heap.cells q ≠ none → t.heap.cells q ≠ none) (q : Nat)
    (hq : heap.cells q ≠ none) : ∃ j, q ∈ Dll.ids (Function.update L i xs j) := by
  by_cases hqx : q ∈ Dll.ids xs
  · exact ⟨i, by rwa [Function.update_self]⟩
  · obtain ⟨j, hj⟩ := hr.owned q (hold q hqx hq)
    have hne : j ≠ i := by
      rintro rfl
      exact hqx (hkept q hj hq)
    exact ⟨j, by rwa [Function.update_of_ne hne]⟩

/-- The ids that are left in a list without the node of `id`. -/
theorem Rep.map_snd_remove (hr : Rep t L T) (hwf : T.Wf) {i : Nat} {as bs : List (Nat × UInt32)}
    (hL : L i = as ++ (p, id) :: bs) :
    (as ++ bs).map Prod.snd = (T.ids i).filter fun k => k ≠ id := by
  have hnd := hwf.nodup i
  simp only [List.map_id', ← hr.ids, hL, List.map_append, List.map_cons] at hnd
  rw [List.nodup_append, List.nodup_cons] at hnd
  obtain ⟨-, ⟨hbs, -⟩, hdisj⟩ := hnd
  rw [← hr.ids, hL, List.map_append, List.map_append, List.map_cons, List.filter_append,
    List.filter_cons_of_neg (by simp), List.filter_eq_self.2, List.filter_eq_self.2]
  · intro k hk
    simpa using ne_of_mem_of_not_mem hk hbs
  · intro k hk
    simpa using hdisj k hk id List.mem_cons_self

theorem cliDestroy_spec (hr : Rep t L T) (hwf : T.Wf) {i : Nat} {as bs : List (Nat × UInt32)}
    (hL : L i = as ++ (p, id) :: bs) :
    ∃ t', t.cliDestroy p = some t' ∧ Rep t' (Function.update L i (as ++ bs)) (T.erase id) := by
  have hmem : (p, id) ∈ L i := by simp [hL]
  obtain rfl : cliHash id = i := hwf.placed i id (hr.mem_ids hmem)
  have hval : t.heap.valAt p = some id := (hr.lists.seg _).valAt hmem
  obtain ⟨h₁, h₂, header', e₁, e₂, hlists, hdead, -, hframe⟩ := lists_deleteFromList hr.lists hL
  have hkept (q : Nat) (hqL : q ∈ Dll.ids (L (cliHash id))) (hq : h₂.cells q ≠ none) :
      q ∈ Dll.ids (as ++ bs) := by
    have hqp : q ≠ p := by
      rintro rfl
      exact hq hdead
    rw [hL] at hqL
    simpa [hqp] using hqL
  refine ⟨{ t with heap := h₂, clis := Function.update t.clis (cliHash id) header' }, ?_, hlists,
    hr.ids_update (hr.map_snd_remove hwf hL), hr.ncid, hr.owned_update hkept fun q hqx hq => ?_⟩
  · simp only [cliDestroy, hval, e₁, e₂, Option.bind_eq_bind, Option.bind_some]
    rfl
  · have hqL : q ∉ Dll.ids (L (cliHash id)) := fun hqL => hqx (hkept q hqL hq)
    exact hframe q hqL ▸ hq

/-! ## Counting -/

theorem countFrom_seg {heap : Heap UInt32} {before head : Option Nat} {xs : List (Nat × UInt32)}
    {k : Nat} (total : UInt32) (hseg : Seg heap.cells before head xs none) (hk : xs.length ≤ k) :
    countFrom heap k total head = some (total + UInt32.ofNat xs.length) := by
  induction xs generalizing before head k total with
  | nil =>
    obtain rfl : head = none := hseg
    cases k <;> simp [countFrom]
  | cons x xs ih =>
    obtain ⟨p, v⟩ := x
    obtain ⟨rfl, next, hp, hrest⟩ := hseg
    cases k with
    | zero => simp at hk
    | succ k =>
      simp only [countFrom, hp, Option.bind_eq_bind, Option.bind_some]
      rw [ih (total + 1) hrest (Nat.le_of_succ_le_succ hk), List.length_cons, Nat.add_comm,
        UInt32.ofNat_add, UInt32.add_assoc]
      rfl

theorem cliTotal_eq (hl : Lists t.heap t.clis L) :
    t.cliTotal = some (UInt32.ofNat (Buckets.toList cliHashSize L).length) := by
  have hloop (js : List Nat) (total : UInt32) :
      js.foldlM (fun total h => countFrom t.heap t.heap.fresh total (t.clis h)) total =
        some (total + UInt32.ofNat (js.flatMap L).length) := by
    induction js generalizing total with
    | nil => simp
    | cons j js ih =>
      rw [List.foldlM_cons, countFrom_seg total (hl.seg j)
        (length_le_fresh (hl.seg j) (hl.nodup j))]
      simp only [Option.bind_eq_bind, Option.bind_some]
      rw [ih, List.flatMap_cons, List.length_append, UInt32.ofNat_add, UInt32.add_assoc]
  rw [cliTotal, hloop, UInt32.zero_add]
  rfl

theorem Rep.length_all (hr : Rep t L T) :
    T.all.length = (Buckets.toList cliHashSize L).length := by
  have hkeys : T.ids = Buckets.keys Prod.snd L := funext fun i => (hr.ids i).symm
  rw [IdTable.all, hkeys, Buckets.toList_keys, List.length_map]

/-! ## New connections -/

theorem cliInit_spec (hr : Rep t L T) {ncid : UInt32}
    (hnew : T.newid (2 ^ 32) T.ncid = some (id, ncid)) :
    ∃ t', { t with heap := (t.heap.alloc 0).1 }.cliInit t.heap.fresh = some t' ∧
      Rep t' (Function.update L (cliHash id) ((t.heap.fresh, id) :: L (cliHash id)))
        (T.insert id ncid) := by
  have halloc : Lists (t.heap.alloc 0).1 t.clis L :=
    ⟨fun i => ((hr.lists.seg i).alloc 0).2, hr.lists.nodup, hr.lists.disjoint⟩
  obtain ⟨hfresh, -⟩ := (hr.lists.seg (cliHash id)).alloc 0
  -- The id is searched for with the new node allocated, which is in no list yet.
  have hsearch := cliNewid_eq (t := { t with heap := (t.heap.alloc 0).1 }) halloc hr.ids (2 ^ 32)
  rw [← hr.ncid] at hnew
  dsimp only at hsearch
  rw [hnew, Option.map_some] at hsearch
  obtain ⟨h₁, e₁, c₁, -⟩ := Heap.modify_eq (h := (t.heap.alloc 0).1) (p := t.heap.fresh)
    (n := ⟨none, none, 0⟩) (Function.update_self ..) fun n => { n with val := id }
  have hseg₁ : Seg h₁.cells none (t.clis (cliHash id)) (L (cliHash id)) none :=
    (halloc.seg _).congr fun q hq => by
      rw [c₁, Function.update_of_ne (ne_of_mem_of_not_mem hq hfresh)]
  obtain ⟨h₂, e₂, hseg₂, -, hframe⟩ := insertToHeader_spec hseg₁
    (by rw [c₁]; exact Function.update_self ..) hfresh (hr.lists.nodup _)
  have hcells (q : Nat) (hq : q ≠ t.heap.fresh) (hqL : q ∉ Dll.ids (L (cliHash id))) :
      h₂.cells q = (t.heap.alloc 0).1.cells q := by
    rw [hframe q hq hqL, c₁, Function.update_of_ne hq]
  refine ⟨⟨h₂, Function.update t.clis (cliHash id) (some t.heap.fresh), ncid⟩, ?_,
    hr.lists.insertFresh hseg₂ (List.Perm.refl _) hcells, hr.ids_update ?_, rfl,
    hr.owned_update (fun q hqL _ => ?_) fun q hqx hq => ?_⟩
  · simp only [cliInit, hsearch, e₁, e₂, Option.bind_eq_bind, Option.bind_some]
    rfl
  · rw [List.map_cons, hr.ids]
  · rw [ids_cons]
    exact List.mem_cons_of_mem _ hqL
  · rw [ids_cons, List.mem_cons, not_or] at hqx
    rw [hcells q hqx.1 hqx.2] at hq
    intro hnone
    refine hq ?_
    rw [← hnone]
    exact Function.update_of_ne hqx.1 ..

theorem handleNewConnection_spec {max : UInt32} (hr : Rep t L T) (hok : T.Ok max) (memory : Bool) :
    ∃ t' L', t.handleNewConnection max memory = some t' ∧ Rep t' L' (T.connect max memory) ∧
      (max.toNat ≤ T.all.length ∨ memory = false → t' = t) := by
  have hcount : max ≤ UInt32.ofNat (Buckets.toList cliHashSize L).length ↔
      max.toNat ≤ T.all.length := by
    have hlt := max.toNat_lt
    have hle := hok.bounded
    rw [← hr.length_all, UInt32.le_iff_toNat_le,
      UInt32.toNat_ofNat_of_lt' (by unfold UInt32.size; omega)]
  simp only [handleNewConnection, cliTotal_eq hr.lists, Option.bind_eq_bind, Option.bind_some,
    hcount]
  rcases hok.connect_cases memory with ⟨hno, e⟩ | ⟨hlt, rfl, id, ncid, -, hnew, -, e⟩
  · rw [e]
    refine ⟨t, L, ?_, hr, fun _ => rfl⟩
    rcases hno with hno | rfl
    · rw [if_pos hno]
      rfl
    · rw [if_neg Bool.false_ne_true, ite_self]
      rfl
  · rw [e, if_neg (by omega)]
    obtain ⟨t', e', hr'⟩ := cliInit_spec hr hnew
    exact ⟨t', _, e', hr', fun hno => absurd hno (by simp; omega)⟩

/-! ## Walks -/

/-- A walk through the clients `bs` of a list that are still ahead. -/
theorem inputFrom_spec (ends : UInt32 → Bool) {i k : Nat} (as : List (Nat × UInt32))
    {bs : List (Nat × UInt32)} (hr : Rep t L T) (hwf : T.Wf) (hL : L i = as ++ bs)
    (hk : bs.length ≤ k) :
    ∃ t' T', inputFrom ends k t (bs.head?.map Prod.fst) = some t' ∧
      Rep t' (Function.update L i (as ++ bs.filter fun x => !ends x.2)) T' ∧ T'.Wf ∧
      T'.ncid = T.ncid := by
  induction bs generalizing as t L T k with
  | nil =>
    refine ⟨t, T, by cases k <;> rfl, ?_, hwf, rfl⟩
    rwa [List.filter_nil, ← hL, Function.update_eq_self]
  | cons x bs ih =>
    obtain ⟨p, id⟩ := x
    cases k with
    | zero => simp at hk
    | succ k =>
      have hk' := Nat.le_of_succ_le_succ hk
      have hchain : Chain t.heap (t.clis i) (Dll.ids as ++ p :: Dll.ids bs) :=
        ⟨L i, by rw [hL, ids_append, ids_cons], hr.lists.seg i⟩
      obtain ⟨n, hn, hnext⟩ := hchain.next
      have hhead : n.next = bs.head?.map Prod.fst := by rw [hnext, Dll.ids, List.head?_map]
      obtain ⟨m, hm, hval⟩ := (hr.lists.seg i).val (p := p) (v := id) (by simp [hL])
      obtain rfl := Option.some.inj (hn.symm.trans hm)
      simp only [List.head?_cons, Option.map_some, inputFrom, hn, Option.bind_eq_bind,
        Option.bind_some, hval, hhead]
      -- The next node was read before the client is destroyed.
      by_cases hend : ends id = true
      · obtain ⟨t₁, e₁, hr₁⟩ := cliDestroy_spec hr hwf hL
        obtain ⟨t', T', e', hr', hwf', hncid⟩ := ih as hr₁ (hwf.erase id)
          (Function.update_self ..) hk'
        refine ⟨t', T', by rw [if_pos hend, e₁]; exact e', ?_, hwf', hncid⟩
        rw [Function.update_idem] at hr'
        rwa [List.filter_cons_of_neg (by simp [hend])]
      · obtain ⟨t', T', e', hr', hwf', hncid⟩ := ih (as ++ [(p, id)]) hr hwf
          (by rw [hL, List.append_assoc]; rfl) hk'
        refine ⟨t', T', by rw [if_neg hend]; exact e', ?_, hwf', hncid⟩
        rwa [List.filter_cons_of_pos (by simp [hend]), List.append_cons]

theorem inputLists_spec (ends : UInt32 → Bool) (js : List Nat) (hr : Rep t L T) (hwf : T.Wf) :
    ∃ t' T', js.foldlM (fun t i => inputFrom ends t.heap.fresh t (t.clis i)) t = some t' ∧
      Rep t' (fun i => if i ∈ js then (L i).filter fun x => !ends x.2 else L i) T' ∧ T'.Wf ∧
      T'.ncid = T.ncid := by
  induction js generalizing t L T with
  | nil => exact ⟨t, T, rfl, by simpa using hr, hwf, rfl⟩
  | cons j js ih =>
    have hhead : t.clis j = (L j).head?.map Prod.fst := by
      have hchain : Chain t.heap (t.clis j) (Dll.ids (L j)) := ⟨_, rfl, hr.lists.seg j⟩
      rw [hchain.head_eq, Dll.ids, List.head?_map]
    obtain ⟨t₁, T₁, e₁, hr₁, hwf₁, hncid₁⟩ := inputFrom_spec ends [] hr hwf
      (List.nil_append (L j)).symm (length_le_fresh (hr.lists.seg j) (hr.lists.nodup j))
    obtain ⟨t', T', e', hr', hwf', hncid'⟩ := ih hr₁ hwf₁
    refine ⟨t', T', ?_, ?_, hwf', hncid'.trans hncid₁⟩
    · rw [List.foldlM_cons, hhead, e₁]
      exact e'
    · have hlists (i : Nat) :
          (if i ∈ js then (Function.update L j ([] ++ (L j).filter fun x => !ends x.2) i).filter
              fun x => !ends x.2
            else Function.update L j ([] ++ (L j).filter fun x => !ends x.2) i) =
          if i ∈ j :: js then (L i).filter fun x => !ends x.2 else L i := by
        by_cases hi : i = j
        · subst hi
          simp [List.filter_filter]
        · simp [hi]
      rwa [funext hlists] at hr'

theorem inputFds_spec (ends : UInt32 → Bool) (hr : Rep t L T) (hwf : T.Wf) :
    ∃ t' L', t.inputFds ends = some t' ∧ Rep t' L' (T.filter fun id => !ends id) := by
  obtain ⟨t', T', e, hr', -, hncid⟩ := inputLists_spec ends (List.range cliHashSize) hr hwf
  have hbuckets (i : Nat) : T'.ids i = (T.ids i).filter fun id => !ends id := by
    rw [← hr'.ids, ← hr.ids, List.filter_map]
    by_cases hi : i ∈ List.range cliHashSize
    · rw [if_pos hi]
      rfl
    · -- There are no other lists.
      have hnil : L i = [] := by
        rw [List.eq_nil_iff_forall_not_mem]
        rintro ⟨p, id⟩ hmem
        rw [List.mem_range, ← hwf.placed i id (hr.mem_ids hmem)] at hi
        exact hi (cliHash_lt id)
      rw [if_neg hi, hnil]
      rfl
  have hT : T' = T.filter fun id => !ends id := by
    obtain ⟨ids, ncid⟩ := T'
    obtain rfl : ncid = T.ncid := hncid
    exact congrArg (fun ids => (⟨ids, T.ncid⟩ : IdTable)) (funext hbuckets)
  exact ⟨t', _, e, hT ▸ hr'⟩

theorem expire_spec (hr : Rep t L T) (hwf : T.Wf) (id : UInt32) :
    ∃ t' L', t.expire id = some t' ∧ Rep t' L' (T.erase id) := by
  simp only [expire, cliFind_eq hr.lists, Option.bind_eq_bind, Option.bind_some]
  cases hx : (L (cliHash id)).find? fun x => x.2 = id with
  | none =>
    refine ⟨t, L, rfl, ?_⟩
    have hnot : id ∉ T.ids (cliHash id) := by
      rw [← hr.ids, List.mem_map]
      rintro ⟨x, hmem, rfl⟩
      simpa using List.find?_eq_none.1 hx x hmem
    have hsame : T.erase id = T := by
      rw [hwf.erase_eq_filter, IdTable.filter]
      congr 1
      funext i
      refine List.filter_eq_self.2 fun k hk => ?_
      have hne : k ≠ id := by
        rintro rfl
        exact hnot (by rwa [hwf.placed i k hk])
      simpa using hne
    rwa [hsame]
  | some x =>
    obtain ⟨p, id'⟩ := x
    obtain ⟨hid, as, bs, hL, -⟩ := List.find?_eq_some_iff_append.1 hx
    obtain rfl : id' = id := by simpa using hid
    obtain ⟨t', e, hr'⟩ := cliDestroy_spec hr hwf hL
    exact ⟨t', _, e, hr'⟩

/-! ## Runs -/

/-- **One event:** it makes no fault and does to the table what `TableEvent.step` says. -/
theorem step_spec {max : UInt32} (hr : Rep t L T) (hok : T.Ok max) (e : TableEvent) :
    ∃ t' L', t.step max e = some t' ∧ Rep t' L' (e.step max T) := by
  cases e with
  | input ends => exact inputFds_spec ends hr hok.wf
  | connection memory =>
    obtain ⟨t', L', e, hr', -⟩ := handleNewConnection_spec hr hok memory
    exact ⟨t', L', e, hr'⟩
  | expire ids =>
    simp only [step, TableEvent.step]
    induction ids generalizing t L T with
    | nil => exact ⟨t, L, rfl, hr⟩
    | cons id ids ih =>
      obtain ⟨t₁, L₁, e₁, hr₁⟩ := expire_spec hr hok.wf id
      obtain ⟨t', L', e', hr'⟩ := ih hr₁ (hok.erase id)
      exact ⟨t', L', by rw [List.foldlM_cons, e₁]; exact e', hr'⟩

theorem run_spec {max : UInt32} (hr : Rep t L T) (hok : T.Ok max) (es : List TableEvent) :
    ∃ t' L', t.run max es = some t' ∧ Rep t' L' (Runs.run (TableEvent.step max) T es) ∧
      (Runs.run (TableEvent.step max) T es).Ok max := by
  induction es generalizing t L T with
  | nil => exact ⟨t, L, rfl, hr, hok⟩
  | cons e es ih =>
    obtain ⟨t₁, L₁, e₁, hr₁⟩ := step_spec hr hok e
    obtain ⟨t', L', e', hr', hok'⟩ := ih hr₁ (hok.step e)
    exact ⟨t', L', by rw [run, List.foldlM_cons, e₁]; exact e', hr', hok'⟩

/-! ## What the table is for -/

/-- The lists `L` hold every client, in the bucket of its id and nowhere else. Ids are distinct,
and lead to their clients. -/
structure Sound (t : CliTable) (L : Nat → List (Nat × UInt32)) : Prop where
  lists : Lists t.heap t.clis L
  placed : ∀ i, ∀ x ∈ L i, cliHash x.2 = i
  linked : ∀ p id, t.heap.valAt p = some id ↔ (p, id) ∈ L (cliHash id)
  distinct : ∀ p q id, t.heap.valAt p = some id → t.heap.valAt q = some id → p = q
  find : ∀ p id, t.heap.valAt p = some id → t.cliFind id = some (some p)
  absent : ∀ id, (∀ p, t.heap.valAt p ≠ some id) → t.cliFind id = some none

theorem Rep.sound (hr : Rep t L T) (hwf : T.Wf) : t.Sound L := by
  have hplaced (i : Nat) (x : Nat × UInt32) (hx : x ∈ L i) : cliHash x.2 = i :=
    hwf.placed i x.2 (hr.mem_ids hx)
  have hlinked (p : Nat) (id : UInt32) :
      t.heap.valAt p = some id ↔ (p, id) ∈ L (cliHash id) := by
    refine ⟨fun hp => ?_, fun hmem => (hr.lists.seg _).valAt hmem⟩
    obtain ⟨n, hn, -⟩ := Option.map_eq_some_iff.1 hp
    obtain ⟨i, hi⟩ := hr.owned p (by rw [hn]; exact nofun)
    obtain ⟨⟨q, id'⟩, hmem, rfl⟩ := List.mem_map.1 hi
    have hval := (hr.lists.seg i).valAt hmem
    rw [hp] at hval
    obtain rfl := Option.some.inj hval
    rwa [hplaced i _ hmem]
  -- An id stands in one bucket only, and there once.
  have hinj (p q : Nat) (id : UInt32) (hp : t.heap.valAt p = some id)
      (hq : t.heap.valAt q = some id) : p = q := by
    have hnd := hwf.nodup (cliHash id)
    rw [List.map_id', ← hr.ids] at hnd
    have hsame := List.inj_on_of_nodup_map hnd ((hlinked p id).1 hp) ((hlinked q id).1 hq) rfl
    exact congrArg Prod.fst hsame
  refine ⟨hr.lists, hplaced, hlinked, hinj, fun p id hp => ?_, fun id hnone => ?_⟩
  · rw [cliFind_eq hr.lists]
    cases hx : (L (cliHash id)).find? fun x => x.2 = id with
    | none => simpa using List.find?_eq_none.1 hx _ ((hlinked p id).1 hp)
    | some x =>
      obtain ⟨q, id'⟩ := x
      obtain rfl : id' = id := by simpa using List.find?_some hx
      rw [Option.map_some, hinj p q id' hp ((hlinked q id').2 (List.mem_of_find?_eq_some hx))]
  · rw [cliFind_eq hr.lists, List.find?_eq_none.2]
    · rfl
    · rintro ⟨p, id'⟩ hmem
      rw [decide_eq_true_eq]
      rintro rfl
      exact hnone p ((hlinked p _).2 hmem)

/-- **The search for a new id ends.** -/
theorem Sound.exists_newid (h : t.Sound L)
    (hlen : (Buckets.toList cliHashSize L).length < 2 ^ 32) :
    ∃ id ncid, t.cliNewid ((Buckets.toList cliHashSize L).length + 1) =
      some (id, { t with ncid }) ∧ t.cliFind id = some none := by
  have hwf : IdTable.Wf ⟨Buckets.keys Prod.snd L, t.ncid⟩ := by
    refine Buckets.wf_keys.2 ⟨h.placed, fun i => ?_⟩
    refine List.Nodup.map_on (fun x hx y hy e => ?_) (List.Nodup.of_map _ (h.lists.nodup i))
    have hxy := h.distinct x.1 y.1 x.2 ((h.lists.seg i).valAt hx) (e ▸ (h.lists.seg i).valAt hy)
    exact Prod.ext hxy e
  have hall : IdTable.all ⟨Buckets.keys Prod.snd L, t.ncid⟩ =
      (Buckets.toList cliHashSize L).map Prod.snd := Buckets.toList_keys
  obtain ⟨r, hr⟩ := IdTable.exists_newid (c := t.ncid)
    (n := (Buckets.toList cliHashSize L).length + 1) hwf (by rw [hall, List.length_map]; omega)
    (by omega)
  refine ⟨r.1, r.2, ?_, ?_⟩
  · rw [cliNewid_eq h.lists (T := ⟨Buckets.keys Prod.snd L, t.ncid⟩) fun _ => rfl, hr]
    rfl
  · have hfree := IdTable.newid_free hr
    refine h.absent r.1 fun p hp => hfree ?_
    exact List.mem_map_of_mem (f := Prod.snd) ((h.linked p r.1).1 hp)

end CliTable

/-- **The client table is sound.** Every run of a server that is polled leaves a table in memory,
without an access to a freed client: it holds the clients of the server as their ids say, and no
more than allowed. A connection that is refused leaves it as it is, the counter included. The
search for a new id ends in any table with fewer than `2 ^ 32` clients. -/
theorem cliTable_ok (s : Server β) (ops : List (SessionOp × Bool)) :
    ∃ t L, CliTable.init.run s.maxConnections ((World.init s).tableTrace ops) = some t ∧
      t.Rep L (Runs.run World.sessionWith (World.init s) ops).idTable ∧ t.Sound L ∧
      (Buckets.toList cliHashSize L).length ≤ s.maxConnections.toNat ∧
      (∀ memory, ∃ t', t.handleNewConnection s.maxConnections memory = some t' ∧
        (s.maxConnections.toNat ≤ (Buckets.toList cliHashSize L).length ∨ memory = false →
          t' = t)) ∧
      ∀ (t : CliTable) L, t.Sound L → (Buckets.toList cliHashSize L).length < 2 ^ 32 →
        ∃ id ncid, t.cliNewid ((Buckets.toList cliHashSize L).length + 1) =
          some (id, { t with ncid }) ∧ t.cliFind id = some none := by
  have hstart : IdTable.Ok s.maxConnections (World.init s).idTable :=
    ⟨World.wf_idTable.2 (World.tableOk_init s).wf, by
      rw [World.all_idTable, List.length_map]
      exact Nat.zero_le _⟩
  obtain ⟨t, L, e, hr, hok⟩ := CliTable.run_spec CliTable.rep_init hstart
    ((World.init s).tableTrace ops)
  have hrun := World.idTable_run (World.tableOk_init s) ops
  refine ⟨t, L, e, hrun ▸ hr, hr.sound hok.wf, hr.length_all ▸ hok.bounded, fun memory => ?_,
    fun t L h hlen => h.exists_newid hlen⟩
  obtain ⟨t', L', e', -, hsame⟩ := CliTable.handleNewConnection_spec hr hok memory
  exact ⟨t', e', hr.length_all ▸ hsame⟩

end Ssn
