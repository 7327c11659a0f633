import Mathlib.Data.Finset.Card
import Mathlib.Data.List.Chain
import SsnIpc.Lib.Runs
import SsnIpc.Server.Table

/-!
# The calls of the connect handler

The connect handler is called with `true` when a client's handshake completes and with `false`
when its connection ends, so that an application can count its clients from these calls alone.

**Theorem (`handler_iff_expiries`).** With a handler installed from the start, the calls for each
id alternate and their balance is the number of connected clients all along a run exactly when
every client that a timer event removes has not completed its handshake.

The timer's event (`ssn_server_handle_event_input`) is the one path that removes a client without
a call. It serves the idle timer as well as the handshake timer, and a client whose idle time ran
out has been reported as connected (`idle_expiry_not_reported`).

The proof keeps three facts: for each id the calls alternate, the last one is `true` exactly for
the connected clients, and the balance is their number. An entry that is no call keeps them if it
keeps the set of connected clients (`CallsOk.silent`); a call keeps them if it goes with the
change it reports (`CallsOk.call`).
-/

namespace Ssn

open ByteMem

variable {β : Type*} {net : Nat → Nat → SendStep} {w : World β} {id : UInt32}

/-! ## Calls -/

/-- The call of the connect handler for the client `id` that an entry reports. -/
def ServerEvent.callFor (id : UInt32) : ServerEvent β → Option Bool
  | .oncli id' connect => if id' = id then some connect else none
  | _ => none

/-- The entry reports a call with the argument `connect`. -/
def ServerEvent.isCall (connect : Bool) : ServerEvent β → Bool
  | .oncli _ connect' => connect' = connect
  | _ => false

/-- The calls for the client `id`. -/
def callsFor (log : List (ServerEvent β)) (id : UInt32) : List Bool :=
  log.filterMap (ServerEvent.callFor id)

/-- The number of calls with the argument `connect`. -/
def callCount (log : List (ServerEvent β)) (connect : Bool) : Nat :=
  log.countP (ServerEvent.isCall connect)

/-- `true`, `false`, `true`, … -/
def Alternating (calls : List Bool) : Prop := List.IsChain (· ≠ ·) (false :: calls)

/-- The last call; before the first one it is as if the client had been reported as gone. -/
def lastCall (calls : List Bool) : Bool := (false :: calls).getLast (List.cons_ne_nil _ _)

theorem alternating_concat {calls : List Bool} {b : Bool} :
    Alternating (calls ++ [b]) ↔ Alternating calls ∧ b ≠ lastCall calls := by
  unfold Alternating lastCall
  rw [← List.cons_append, List.isChain_append]
  simp [List.getLast?_eq_some_getLast, eq_comm]

theorem lastCall_concat {calls : List Bool} {b : Bool} : lastCall (calls ++ [b]) = b := by
  simp [lastCall]

def NoCall (e : ServerEvent β) : Prop := ∀ id connect, e ≠ .oncli id connect

theorem World.Plain.noCall {e : ServerEvent β} (h : World.Plain e) : NoCall e := by
  rintro id connect rfl
  exact h

theorem callFor_of_noCall {e : ServerEvent β} (h : NoCall e) : e.callFor id = none := by
  cases e with
  | oncli id' connect => exact absurd rfl (h id' connect)
  | _ => rfl

theorem isCall_of_noCall {e : ServerEvent β} (h : NoCall e) (connect : Bool) :
    e.isCall connect = false := by
  cases e with
  | oncli id' connect' => exact absurd rfl (h id' connect')
  | _ => rfl

theorem callsFor_append (log es : List (ServerEvent β)) (id : UInt32) :
    callsFor (log ++ es) id = callsFor log id ++ callsFor es id :=
  List.filterMap_append

theorem callCount_append (log es : List (ServerEvent β)) (connect : Bool) :
    callCount (log ++ es) connect = callCount log connect + callCount es connect :=
  List.countP_append

theorem callsFor_noCall {es : List (ServerEvent β)} (h : ∀ e ∈ es, NoCall e) (id : UInt32) :
    callsFor es id = [] :=
  List.filterMap_eq_nil_iff.2 fun e he => callFor_of_noCall (h e he)

theorem callCount_noCall {es : List (ServerEvent β)} (h : ∀ e ∈ es, NoCall e) (connect : Bool) :
    callCount es connect = 0 :=
  List.countP_eq_zero.2 fun e he => by simp [isCall_of_noCall (h e he)]

namespace World

/-! ## Connected clients -/

/-- The ids of the clients in the table whose handshake completed. -/
def connected (w : World β) : Finset UInt32 :=
  ((w.server.clients.filter Client.onconn).map Client.id).toFinset

theorem mem_connected (h : w.Wf) : id ∈ w.connected ↔ w.view Client.onconn id = some true := by
  simp only [connected, List.mem_toFinset, List.mem_map, List.mem_filter, view,
    Option.map_eq_some_iff]
  constructor
  · rintro ⟨c, ⟨hc, hon⟩, rfl⟩
    exact ⟨c, h.mem_clients.1 hc, hon⟩
  · rintro ⟨c, hc, hon⟩
    obtain rfl := Server.cliFind_id hc
    exact ⟨c, ⟨h.mem_clients.2 hc, hon⟩, rfl⟩

theorem card_connected (h : w.Wf) : w.connected.card = w.server.clients.countP Client.onconn := by
  rw [connected, List.toFinset_card_of_nodup, List.length_map, List.countP_eq_length_filter]
  exact h.nodup_clients.sublist (List.filter_sublist.map _)

theorem connected_congr {w' : World β} (h : w.Wf) (h' : w'.Wf)
    (hv : w'.view Client.onconn = w.view Client.onconn) : w'.connected = w.connected := by
  ext id
  rw [mem_connected h, mem_connected h', hv]

theorem view_onconn : w.view Client.onconn id = (w.view Client.core id).map Core.onconn := by
  rw [view, view, Option.map_map]
  rfl

theorem view_onconn_congr {w' : World β} (h : w'.view Client.core = w.view Client.core) :
    w'.view Client.onconn = w.view Client.onconn := by
  funext id
  rw [view_onconn, view_onconn, h]

/-! ## Calls and clients -/

/-- For each id the calls alternate and the last one is `true` exactly for a connected client; in
all, the calls balance to the number of connected clients. -/
structure CallsOk (w : World β) : Prop where
  alternating : ∀ id, Alternating (callsFor w.log id)
  last_iff : ∀ id, lastCall (callsFor w.log id) = true ↔ id ∈ w.connected
  balance : callCount w.log true = callCount w.log false + w.connected.card

theorem Grows.callsFor_eq {w' : World β} (h : Grows NoCall w w') (id : UInt32) :
    callsFor w'.log id = callsFor w.log id := by
  obtain ⟨es, he, hno⟩ := h
  rw [he, callsFor_append, callsFor_noCall hno, List.append_nil]

theorem Grows.callCount_eq {w' : World β} (h : Grows NoCall w w') (b : Bool) :
    callCount w'.log b = callCount w.log b := by
  obtain ⟨es, he, hno⟩ := h
  rw [he, callCount_append, callCount_noCall hno, Nat.add_zero]

theorem CallsOk.silent {w' : World β} (h : w.CallsOk) (hlog : Grows NoCall w w')
    (hc : w'.connected = w.connected) : w'.CallsOk := by
  refine ⟨fun id => ?_, fun id => ?_, ?_⟩
  · rw [hlog.callsFor_eq]
    exact h.alternating id
  · rw [hlog.callsFor_eq, hc]
    exact h.last_iff id
  · rw [hlog.callCount_eq, hlog.callCount_eq, hc]
    exact h.balance

theorem callsFor_call (log : List (ServerEvent β)) (id id' : UInt32) (b : Bool) :
    callsFor (log ++ [.oncli id b]) id' =
      if id' = id then callsFor log id' ++ [b] else callsFor log id' := by
  rw [callsFor_append]
  by_cases e : id' = id
  · simp [callsFor, ServerEvent.callFor, e]
  · simp [callsFor, ServerEvent.callFor, e, Ne.symm e]

theorem callCount_call (log : List (ServerEvent β)) (id : UInt32) (b b' : Bool) :
    callCount (log ++ [.oncli id b]) b' = callCount log b' + if b = b' then 1 else 0 := by
  rw [callCount_append]
  simp [callCount, ServerEvent.isCall, List.countP_cons]

theorem CallsOk.call {w' : World β} (h : w.CallsOk) (id : UInt32) (b : Bool)
    (hlog : w'.log = w.log ++ [.oncli id b]) (hbefore : id ∈ w.connected ↔ b = false)
    (hc : w'.connected = if b then insert id w.connected else w.connected.erase id) :
    w'.CallsOk := by
  -- The handler was last told the opposite.
  have hlast : b ≠ lastCall (callsFor w.log id) := by
    have := h.last_iff id
    cases b <;> simp_all
  refine ⟨fun id' => ?_, fun id' => ?_, ?_⟩
  · rw [hlog, callsFor_call]
    split_ifs with e
    · subst e
      exact alternating_concat.2 ⟨h.alternating id', hlast⟩
    · exact h.alternating id'
  · rw [hlog, callsFor_call, hc]
    split_ifs with e hb hb
    · simp [lastCall_concat, e, hb]
    · simp [lastCall_concat, e, hb]
    · rw [Finset.mem_insert, h.last_iff id']
      simp [e]
    · rw [Finset.mem_erase, h.last_iff id']
      simp [e]
  · rw [hlog, callCount_call, callCount_call, hc]
    have hbal := h.balance
    cases b with
    | true =>
      have hnot : id ∉ w.connected := by simp [hbefore]
      simp only [if_true, Bool.true_eq_false, if_false, Finset.card_insert_of_notMem hnot]
      omega
    | false =>
      have hmem : id ∈ w.connected := by simp [hbefore]
      have := Finset.card_erase_add_one hmem
      simp only [Bool.false_eq_true, if_false, if_true]
      omega

/-! ## The steps -/

/-- What a run with a handler keeps. -/
structure HandlerInv (w : World β) : Prop where
  table : w.TableOk
  oncli : w.server.hasOncli = true
  calls : w.CallsOk

theorem hasOncli_send (msg : Message) :
    (w.send net id msg).server.hasOncli = w.server.hasOncli :=
  hasOncli_cliSendmsg (w := w.createHeader msg) msg

theorem hasOncli_callOncli (b : Bool) :
    (w.callOncli id b).server.hasOncli = w.server.hasOncli := by
  unfold callOncli
  split_ifs <;> rfl

theorem hasOncli_modifyCli (f : Client → Client) :
    (w.modifyCli id f).server.hasOncli = w.server.hasOncli := rfl

theorem hasOncli_dispatch {f : Frame} :
    (w.dispatch net id f).server.hasOncli = w.server.hasOncli := by
  by_cases hf : getMsgType f = MsgType.serviceInfo
  · rw [dispatch_serviceInfo hf, noteConnected]
    split_ifs
    · rw [hasOncli_callOncli, hasOncli_modifyCli, hasOncli_replyServiceInfo]
    · exact hasOncli_replyServiceInfo
  · apply dispatch_plain (P := fun w' => w'.server.hasOncli = w.server.hasOncli) hf
    · rfl
    · rfl
    · exact fun _ _ _ => rfl
    · exact fun _ => hasOncli_send _
    · exact fun _ _ => (hasOncli_send _).trans (hasOncli_modifyCli _)

theorem HandlerInv.silent {w' : World β} (h : w.HandlerInv) (ht : w'.TableOk)
    (hon : w'.server.hasOncli = w.server.hasOncli) (hlog : Grows NoCall w w')
    (hv : w'.view Client.onconn = w.view Client.onconn) : w'.HandlerInv where
  table := ht
  oncli := hon.trans h.oncli
  calls := h.calls.silent hlog (connected_congr h.table.wf ht.wf hv)

theorem HandlerInv.cliDestroy (h : w.HandlerInv) (hc : id ∉ w.connected) :
    (w.cliDestroy id).HandlerInv where
  table := h.table.cliDestroy
  oncli := h.oncli
  calls := by
    refine h.calls.silent ((Grows.of_eq rfl).emit nofun) (Finset.ext fun id' => ?_)
    rw [mem_connected h.table.cliDestroy.wf, mem_connected h.table.wf, view_cliDestroy]
    by_cases e : id' = id
    · subst e
      rw [mem_connected h.table.wf] at hc
      simp [hc]
    · rw [Function.update_of_ne e]

/-- The flag of a client changes and the handler is told. -/
theorem HandlerInv.modifyCall {b : Bool} {c : Client} (h : w.HandlerInv)
    (hc : w.server.cliFind id = some c) (hb : c.onconn = !b) :
    ((w.modifyCli id fun c => { c with onconn := b }).callOncli id b).HandlerInv := by
  have ht : ((w.modifyCli id fun c => { c with onconn := b }).callOncli id b).TableOk := by
    have hm : (w.modifyCli id fun c => { c with onconn := b }).TableOk :=
      h.table.modifyCli (fun _ => rfl) fun _ hr => hr
    exact hm.callOncli b
  refine ⟨ht, (hasOncli_callOncli b).trans h.oncli, h.calls.call id b ?_ ?_ ?_⟩
  · rw [callOncli, if_pos (by exact h.oncli)]
    rfl
  · rw [mem_connected h.table.wf, view, hc, Option.map_some, hb]
    cases b <;> simp
  · ext id'
    rw [mem_connected ht.wf, view_callOncli,
      view_modifyCli (f := fun c => { c with onconn := b }) _ fun _ => rfl, hc, Option.map_some]
    by_cases e : id' = id
    · subst e
      rw [Function.update_self]
      cases b <;> simp
    · rw [Function.update_of_ne e, ← mem_connected h.table.wf]
      cases b <;> simp [e]

theorem HandlerInv.noteConnected (h : w.HandlerInv) : (w.noteConnected id).HandlerInv := by
  unfold World.noteConnected
  cases hc : w.server.cliFind id with
  | none => exact h
  | some c =>
    rw [Option.any_some]
    split_ifs with hon
    · exact h.modifyCall hc (by simpa using hon)
    · exact h

theorem onconn_after {f : Frame} (hf : getMsgType f ≠ MsgType.serviceInfo) (c : Core) :
    (c.after f).onconn = c.onconn := by
  rw [Core.after, if_neg hf]
  split_ifs <;> rfl

theorem HandlerInv.input (h : w.HandlerInv) (f : Frame) : (w.input net id f).HandlerInv := by
  have ht : (w.emit (.input id f)).TableOk := ⟨h.table.wf, h.table.ready⟩
  have htouch : ((w.emit (.input id f)).touch id).HandlerInv := by
    refine h.silent (ht.modifyCli (fun _ => rfl) fun _ hr => hr) rfl
      ((Grows.of_eq rfl).emit nofun) ?_
    exact view_modifyCli_same _ (fun _ => rfl) fun _ => rfl
  rw [World.input_eq]
  by_cases hf : getMsgType f = MsgType.serviceInfo
  · have hreply : (((w.emit (.input id f)).touch id).replyServiceInfo net id f).HandlerInv := by
      refine htouch.silent ⟨htouch.table.wf.of_idTable idTable_replyServiceInfo, ?_⟩
        hasOncli_replyServiceInfo (grows_replyServiceInfo fun _ _ _ => Plain.noCall trivial)
        (view_onconn_congr core_replyServiceInfo)
      rw [core_replyServiceInfo]
      exact htouch.table.ready
    rw [dispatch_serviceInfo hf]
    exact hreply.noteConnected
  · refine htouch.silent (h.table.input f) hasOncli_dispatch
      (grows_dispatch_plain hf (fun _ => grows_send fun _ _ _ => Plain.noCall trivial)
        (fun _ _ _ => Plain.noCall trivial) fun _ _ => Plain.noCall trivial) ?_
    funext id'
    rw [view_onconn, view_onconn, core_dispatch]
    by_cases e : id' = id
    · subst e
      rw [Function.update_self, Option.map_map]
      congr 1
      funext c
      exact onconn_after hf c
    · rw [Function.update_of_ne e]

theorem HandlerInv.closeClient {cli : Client} (h : w.HandlerInv)
    (hcli : w.server.cliFind cli.id = some cli) : (w.closeClient cli).HandlerInv := by
  unfold World.closeClient
  split_ifs with hon
  · have hcall := h.modifyCall (b := false) hcli hon
    refine hcall.cliDestroy ?_
    rw [mem_connected hcall.table.wf, view_callOncli,
      view_modifyCli (f := fun c => { c with onconn := false }) _ fun _ => rfl, hcli]
    simp
  · refine h.cliDestroy ?_
    rw [mem_connected h.table.wf, view, hcli]
    simpa using hon

theorem HandlerInv.addClient (h : w.HandlerInv) (hid : w.server.cliFind id = none) (ncid : UInt32)
    (fd : Int) : (w.addClient id ncid fd).HandlerInv where
  table := h.table.addClient hid ncid fd
  oncli := h.oncli
  calls := by
    refine h.calls.silent ((Grows.of_eq rfl).emit nofun) (Finset.ext fun id' => ?_)
    rw [mem_connected (h.table.addClient hid ncid fd).wf, mem_connected h.table.wf, view_addClient]
    by_cases e : id' = id
    · subst e
      simp [view, hid, cliInit]
    · rw [Function.update_of_ne e]

/-! ## Removals by the timer -/

theorem grows_destroyAll (cs : List Client) : Grows NoCall w (w.destroyAll cs) := by
  induction cs generalizing w with
  | nil => exact .of_eq rfl
  | cons c cs ih =>
    have hno : NoCall (.removed c.id : ServerEvent β) := Plain.noCall trivial
    exact ((Grows.of_eq rfl).emit hno).trans (ih (w := w.cliDestroy c.id))

theorem hasOncli_destroyAll (cs : List Client) :
    (w.destroyAll cs).server.hasOncli = w.server.hasOncli := by
  induction cs generalizing w with
  | nil => rfl
  | cons c cs ih => exact ih (w := w.cliDestroy c.id)

theorem HandlerInv.destroyAll {cs : List Client} (h : w.HandlerInv)
    (hcs : ∀ c ∈ cs, c.id ∉ w.connected) : (w.destroyAll cs).HandlerInv where
  table := h.table.destroyAll cs
  oncli := (hasOncli_destroyAll cs).trans h.oncli
  calls := by
    refine h.calls.silent (grows_destroyAll cs) (Finset.ext fun id => ?_)
    rw [mem_connected (h.table.destroyAll cs).wf, view_destroyAll, mem_connected h.table.wf]
    split_ifs with hmem
    · obtain ⟨c, hc, rfl⟩ := List.mem_map.1 hmem
      have := hcs c hc
      rw [mem_connected h.table.wf] at this
      simp [this]
    · rfl

/-! ## Runs -/

/-- What the connect handler is told: for each id the calls alternate, starting with `true`, and
the last one is `true` exactly while the client is in the table with its handshake completed; the
calls with `true` outnumber those with `false` by the number of such clients. -/
structure HandlerOk (w : World β) : Prop where
  alternating : ∀ id, Alternating (callsFor w.log id)
  last_iff : ∀ id, lastCall (callsFor w.log id) = true ↔
    ∃ c, w.server.cliFind id = some c ∧ c.onconn = true
  balance : callCount w.log true =
    callCount w.log false + w.server.clients.countP Client.onconn

/-- A timer event meets only clients that have not completed their handshake. -/
def OnlyHandshakesExpire (w : World β) (op : ServerOp) : Prop :=
  op = .eventInput → w.server.evtPending = true →
    ∀ c ∈ w.server.clients, expired c = true → c.onconn = false

theorem HandlerInv.handlerOk (h : w.HandlerInv) : w.HandlerOk where
  alternating := h.calls.alternating
  last_iff id := by
    rw [h.calls.last_iff, mem_connected h.table.wf, view, Option.map_eq_some_iff]
  balance := by
    rw [← card_connected h.table.wf]
    exact h.calls.balance

theorem HandlerInv.eventInput (h : w.HandlerInv) (hok : w.OnlyHandshakesExpire .eventInput) :
    w.handleEventInput.HandlerInv := by
  by_cases hp : w.server.evtPending = true
  · rw [handleEventInput_eq hp]
    have hdrain : w.drainEvent.HandlerInv :=
      ⟨⟨h.table.wf, h.table.ready⟩, h.oncli,
        ⟨h.calls.alternating, h.calls.last_iff, h.calls.balance⟩⟩
    refine hdrain.destroyAll fun c hc => ?_
    obtain ⟨hfind, hexp⟩ := (mem_expired h.table.wf).1 hc
    have hoff : c.onconn = false := hok rfl hp c (h.table.wf.mem_clients.2 hfind) hexp
    have hnot : c.id ∉ w.connected := by simp [mem_connected h.table.wf, view, hfind, hoff]
    exact hnot
  · rw [handleEventInput, if_neg hp]
    exact h

theorem handlerInv_step (h : w.HandlerInv) (op : ServerOp) (hok : w.OnlyHandshakesExpire op) :
    (w.step net op).HandlerInv := by
  refine step_invariant h.table h (fun w' hq => ?_)
    (fun id ncid fd hid => h.addClient hid ncid fd) (fun id buf => ?_) (fun w id f hw => hw.input f)
    (fun w id recv hr hw => ?_) (fun cli hcli => h.closeClient hcli) fun e => ?_
  · refine h.silent ⟨hq.wf, ?_⟩ hq.oncli (hq.log.mono fun _ hs => hs.plain.noCall)
      (view_onconn_congr hq.core)
    rw [hq.core]
    exact h.table.ready
  · exact h.silent ⟨h.table.wf, h.table.ready⟩ rfl ((Grows.of_eq rfl).emit nofun) rfl
  · refine hw.silent (hw.table.modifyCli (fun _ => rfl) fun _ _ => hr) rfl (.of_eq rfl) ?_
    exact view_modifyCli_same _ (fun _ => rfl) fun _ => rfl
  · subst e
    exact h.eventInput hok

/-- A connected client that a timer event removes is missing from the balance at once. -/
theorem HandlerInv.not_ok (h : w.HandlerInv) {op : ServerOp} (hbad : ¬ w.OnlyHandshakesExpire op) :
    ¬ (w.step net op).HandlerOk := by
  simp only [OnlyHandshakesExpire, not_forall] at hbad
  obtain ⟨rfl, hp, c, hc, hexp, hon⟩ := hbad
  have hfind := h.table.wf.mem_clients.1 hc
  have hmem : c ∈ w.server.clients.filter expired := (mem_expired h.table.wf).2 ⟨hfind, hexp⟩
  intro hok
  rw [step, handleEventInput_eq hp] at hok
  have ht' : (w.drainEvent.destroyAll (w.server.clients.filter expired)).TableOk :=
    TableOk.destroyAll (w := w.drainEvent) ⟨h.table.wf, h.table.ready⟩ _
  have hmem' (id : UInt32) :
      id ∈ (w.drainEvent.destroyAll (w.server.clients.filter expired)).connected ↔
        id ∉ (w.server.clients.filter expired).map Client.id ∧ id ∈ w.connected := by
    rw [mem_connected ht'.wf, view_destroyAll, mem_connected h.table.wf]
    split_ifs with hin
    · simp [hin]
    · simp only [hin, not_false_eq_true, true_and]
      rfl
  have hlt : (w.drainEvent.destroyAll (w.server.clients.filter expired)).connected.card <
      w.connected.card := by
    refine Finset.card_lt_card
      (Finset.ssubset_iff_of_subset (fun id hid => ((hmem' id).1 hid).2) |>.2
      ⟨c.id, ?_, fun hin => ((hmem' c.id).1 hin).1 (List.mem_map_of_mem hmem)⟩)
    rw [mem_connected h.table.wf, view, hfind, Option.map_some]
    simpa using hon
  have hgrow : Grows NoCall w (w.drainEvent.destroyAll (w.server.clients.filter expired)) :=
    grows_destroyAll (w := w.drainEvent) _
  have hbal := hok.balance
  rw [← card_connected ht'.wf, hgrow.callCount_eq, hgrow.callCount_eq, h.calls.balance] at hbal
  omega

end World

/-- **The connect handler is told the truth unless a connected client idles out.** For a server
with a connect handler installed from the start, the calls are right in every state of a run
exactly when every timer event of the run removes only clients that have not completed their
handshake. -/
theorem handler_iff_expiries (net : Nat → Nat → SendStep) (s : Server β) (ops : List ServerOp) :
    Runs.Always (World.step net) World.HandlerOk (World.init { s with hasOncli := true }) ops ↔
      Runs.EachStep (World.step net) World.OnlyHandshakesExpire
        (World.init { s with hasOncli := true }) ops := by
  refine Runs.always_iff_eachStep (fun w op hw _ hok => World.handlerInv_step hw op hok)
    (fun w hw => hw.handlerOk) (fun w op hw _ hbad => hw.not_ok hbad)
    ⟨World.tableOk_init _, rfl, ?_⟩
    Runs.eachStep_true
  refine ⟨fun id => List.isChain_singleton _, fun id => ?_, rfl⟩
  rw [World.mem_connected (World.tableOk_init _).wf]
  exact ⟨(fun h => nomatch h), (fun h => nomatch h)⟩

/-- A client connects, completes its handshake and is silent for a second. -/
def idleOut : List ServerOp :=
  [.newConnection 5, .clientInput 0 (.data (packet MsgType.serviceInfo 0 0 none none))] ++
    List.replicate 20 .timerSweep ++ [.eventInput]

/-- With an idle timeout of one second the client is removed and the handler is not told: one call
with `true`, none with `false`, and nobody left. -/
theorem idle_expiry_not_reported :
    ¬ Runs.Always (World.step fun _ _ => .accepted maxPacketSize) World.HandlerOk
      (World.init { (Server.create 1 : Server Unit) with hasOncli := true }) idleOut := by
  intro h
  have hbal := (h idleOut (List.prefix_refl _)).balance
  exact absurd hbal (by decide +kernel)

end Ssn
