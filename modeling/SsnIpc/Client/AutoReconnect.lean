import Mathlib.Tactic.Common
import SsnIpc.Lib.Runs

/-!
# Stopping the auto-reconnect thread

`ssn_client_auto_t` keeps a client connected: its thread connects, pings and polls, and moves
through the states below. It takes the mutex to read the state and again to write the next one,
and works without it in between. `ssn_client_auto_stop` sets the state to `STOPPED` and `running`
to 0 under the mutex and then waits for the thread.

**Theorem (`stopHolds_of_noLateWrite`).** Once a stop has returned true the state is `STOPPED`, so
that the object can be started again and its thread is not joined twice, in every interleaving in
which the thread writes no state after `running` was cleared.

The thread checks `running` only at the head of its loop, so it does write one if it was past the
check when it was stopped (`stop_while_connecting`).
-/

namespace Ssn

/-! ## The object and its thread -/

/-- `ssn_client_auto_state_t`. -/
inductive AutoState
  | idle
  | connecting
  | connected
  | disconnected
  | stopped
  deriving DecidableEq

/-- `SSN_CLIENT_AUTO_MAX_PING_LOST`. -/
def maxPingLost : Nat := 3

inductive AutoPc
  /-- At the head of the loop. -/
  | top
  /-- `CONNECTING`: in `ssn_client_connect`. -/
  | connecting
  /-- It is connected; the state is to be written. -/
  | connectedWrite
  /-- Subscribing, and in the callback. -/
  | announcing
  /-- The connection failed; sleeping. -/
  | retrySleep
  /-- `CONNECTED`: in `ssn_client_ping`. -/
  | pinging
  | pingOk
  | pingFailed
  /-- Too many pings were lost; the state is to be written. -/
  | pingLostWrite
  /-- In `ssn_client_poll`. -/
  | polling
  /-- The client is not connected any more; the state is to be written. -/
  | closedWrite
  | keepaliveSleep
  /-- `DISCONNECTED`: sleeping. -/
  | reconnSleep
  /-- The state is to be written. -/
  | reconnWrite
  /-- `IDLE`: in `pthread_cond_wait`. -/
  | condWait
  | exited
  deriving DecidableEq

inductive AutoUser
  | outside
  /-- In `ssn_client_auto_stop`, called by `ssn_client_auto_delete` or not, waiting for the
  thread. -/
  | joining (deleting : Bool)
  /-- The object is deleted. -/
  | deleted
  deriving DecidableEq

/-- `ssn_client_auto_t`. `joins` counts how often the present thread was joined, and `returned`
tells whether a stop has returned true since the last start. -/
structure ClientAuto where
  state : AutoState
  running : Bool
  pingLost : Nat
  thread : Option AutoPc
  user : AutoUser
  joins : Nat
  returned : Bool
  deriving DecidableEq

inductive AutoEvent
  /-- `ssn_client_auto_start`; `created` tells whether the thread could be made. -/
  | start (created : Bool)
  /-- `ssn_client_auto_stop` up to the join. -/
  | stop
  /-- `ssn_client_auto_delete` up to the join. -/
  | delete
  /-- The join is over. -/
  | joined
  /-- The thread goes on; `ok` is the outcome of what it is in (connect, ping, poll). -/
  | thread (ok : Bool)
  deriving DecidableEq

namespace ClientAuto

/-- `ssn_client_auto_create`. -/
def create : ClientAuto := ⟨.idle, false, 0, none, .outside, 0, false⟩

/-- A start is accepted, and a stop has nothing to do. -/
def atRest (s : ClientAuto) : Bool := s.state = .idle ∨ s.state = .stopped

/-- `ssn_client_auto_start`. -/
def autoStart (s : ClientAuto) (created : Bool) : ClientAuto :=
  if s.atRest then
    if created then
      { s with
        running := true, state := .connecting, thread := some .top, joins := 0, returned := false }
    else { s with running := false, state := .stopped }
  else s

/-- `ssn_client_auto_stop` up to the join. -/
def autoStop (s : ClientAuto) (deleting : Bool) : ClientAuto :=
  if s.atRest then if deleting then { s with user := .deleted } else s
  else { s with running := false, state := .stopped, user := .joining deleting }

@[simp] theorem thread_autoStop (s : ClientAuto) (deleting : Bool) :
    (s.autoStop deleting).thread = s.thread := by
  unfold autoStop
  split_ifs <;> rfl

/-- The rest of `ssn_client_auto_stop`. -/
def joined (s : ClientAuto) (deleting : Bool) : ClientAuto :=
  { s with
    user := if deleting then .deleted else .outside
    joins := s.joins + 1
    pingLost := 0
    returned := true }

/-- What the thread does with the state it has read. -/
def branch : AutoState → AutoPc
  | .connecting => .connecting
  | .connected => .pinging
  | .disconnected => .reconnSleep
  | .stopped => .exited
  | .idle => .condWait

def threadStep (s : ClientAuto) (pc : AutoPc) (ok : Bool) : ClientAuto :=
  match pc with
  | .top => { s with thread := some (if s.running then branch s.state else .exited) }
  | .connecting => { s with thread := some (if ok then .connectedWrite else .retrySleep) }
  | .connectedWrite =>
    { s with state := .connected, pingLost := 0, thread := some .announcing }
  | .announcing => { s with thread := some .top }
  | .retrySleep => { s with thread := some .top }
  | .pinging => { s with thread := some (if ok then .pingOk else .pingFailed) }
  | .pingOk => { s with pingLost := 0, thread := some .polling }
  | .pingFailed =>
    { s with
      pingLost := s.pingLost + 1
      thread := some (if maxPingLost ≤ s.pingLost + 1 then .pingLostWrite else .polling) }
  | .pingLostWrite => { s with state := .disconnected, thread := some .polling }
  | .polling => { s with thread := some (if ok then .keepaliveSleep else .closedWrite) }
  | .closedWrite => { s with state := .disconnected, thread := some .keepaliveSleep }
  | .keepaliveSleep => { s with thread := some .top }
  | .reconnSleep => { s with thread := some .reconnWrite }
  | .reconnWrite => { s with state := .connecting, thread := some .top }
  | .condWait => { s with thread := some .top }
  | .exited => s

def step (s : ClientAuto) : AutoEvent → ClientAuto
  | .start created => if s.user = .outside then s.autoStart created else s
  | .stop => if s.user = .outside then s.autoStop false else s
  | .delete => if s.user = .outside then s.autoStop true else s
  | .joined =>
    match s.user, s.thread with
    | .joining deleting, some .exited => s.joined deleting
    | _, _ => s
  | .thread ok =>
    match s.thread with
    | some pc => s.threadStep pc ok
    | none => s

/-- After a stop that returned true the object is stopped, so that a start is accepted and a stop
has nothing to do, and no thread is joined twice. -/
structure StopHolds (s : ClientAuto) : Prop where
  stopped : s.returned = true → s.state = .stopped
  atRest : s.returned = true → s.atRest = true
  once : s.joins ≤ 1

end ClientAuto

def AutoPc.writes : AutoPc → Bool
  | .connectedWrite => true
  | .pingLostWrite => true
  | .closedWrite => true
  | .reconnWrite => true
  | _ => false

namespace ClientAuto

/-- The thread does not write the state after it was told to stop. -/
def NoLateWrite (s : ClientAuto) : AutoEvent → Prop
  | .thread _ => ∀ pc ∈ s.thread, pc.writes = true → s.running = true
  | _ => True

instance (s : ClientAuto) : ∀ e, Decidable (s.NoLateWrite e)
  | .thread _ =>
    inferInstanceAs (Decidable (∀ pc ∈ s.thread, pc.writes = true → s.running = true))
  | .start _ | .stop | .delete | .joined => inferInstanceAs (Decidable True)

/-! ## The invariant -/

/-- While the object is at work `running` is set, and while it is set nobody has stopped it. -/
structure Inv (s : ClientAuto) : Prop where
  active : s.atRest = false → s.running = true
  running : s.running = true → s.joins = 0 ∧ s.returned = false ∧ ∀ d, s.user ≠ .joining d
  joining : ∀ d, s.user = .joining d → s.state = .stopped ∧ s.joins = 0
  returned : s.returned = true → s.state = .stopped
  once : s.joins ≤ 1

variable {s : ClientAuto}

theorem Inv.stopHolds (h : s.Inv) : s.StopHolds := by
  refine ⟨h.returned, fun hr => ?_, h.once⟩
  simp [ClientAuto.atRest, h.returned hr]

theorem Inv.of_thread (h : s.Inv) (thread : Option AutoPc) (pingLost : Nat) :
    Inv { s with thread, pingLost } :=
  ⟨h.active, h.running, h.joining, h.returned, h.once⟩

/-- The thread writes the state while `running` is set. -/
theorem Inv.write (h : s.Inv) (hrun : s.running = true) (state : AutoState)
    (thread : Option AutoPc) (pingLost : Nat) : Inv { s with state, thread, pingLost } := by
  obtain ⟨hjoins, hreturned, huser⟩ := h.running hrun
  refine ⟨fun _ => hrun, fun _ => ⟨hjoins, hreturned, huser⟩, fun d hd => absurd hd (huser d),
    fun hr => ?_, h.once⟩
  cases hreturned.symm.trans hr

theorem Inv.threadStep (h : s.Inv) {pc : AutoPc} (ok : Bool)
    (hok : pc.writes = true → s.running = true) : (s.threadStep pc ok).Inv := by
  cases pc with
  | connectedWrite => exact h.write (hok rfl) ..
  | pingLostWrite => exact h.write (hok rfl) ..
  | closedWrite => exact h.write (hok rfl) ..
  | reconnWrite => exact h.write (hok rfl) ..
  | _ => exact h.of_thread ..

theorem Inv.autoStart (h : s.Inv) (huser : s.user = .outside) (created : Bool) :
    (s.autoStart created).Inv := by
  have hout (d : Bool) : s.user ≠ .joining d := by
    rw [huser]
    exact nofun
  unfold ClientAuto.autoStart
  split_ifs
  · exact ⟨fun _ => rfl, fun _ => ⟨rfl, rfl, hout⟩, fun d hd => absurd hd (hout d), nofun,
      Nat.zero_le _⟩
  · exact ⟨nofun, nofun, fun d hd => absurd hd (hout d), fun _ => rfl, h.once⟩
  · exact h

theorem Inv.autoStop (h : s.Inv) (deleting : Bool) : (s.autoStop deleting).Inv := by
  unfold ClientAuto.autoStop
  split_ifs with hrest
  · refine ⟨h.active, fun hrun => ?_, nofun, h.returned, h.once⟩
    obtain ⟨hjoins, hreturned, -⟩ := h.running hrun
    exact ⟨hjoins, hreturned, nofun⟩
  · exact h
  · -- The thread was at work, so nobody has joined it yet.
    obtain ⟨hjoins, -, -⟩ := h.running (h.active (Bool.not_eq_true _ ▸ hrest))
    exact ⟨nofun, nofun, fun _ _ => ⟨rfl, hjoins⟩, fun _ => rfl, h.once⟩

theorem Inv.joined (h : s.Inv) {deleting : Bool} (huser : s.user = .joining deleting) :
    (s.joined deleting).Inv := by
  obtain ⟨hstate, hjoins⟩ := h.joining deleting huser
  refine ⟨fun hrest => ?_, fun hrun => ?_, fun d hd => ?_, fun _ => hstate, ?_⟩
  · simp [atRest, ClientAuto.joined, hstate] at hrest
  · exact absurd huser ((h.running hrun).2.2 deleting)
  · cases deleting <;> cases hd
  · exact Nat.le_of_eq (congrArg (· + 1) hjoins)

theorem inv_step (s : ClientAuto) (e : AutoEvent) (h : s.Inv) (hok : s.NoLateWrite e) :
    (s.step e).Inv := by
  cases e with
  | start created =>
    simp only [step]
    split_ifs with huser
    · exact h.autoStart huser created
    · exact h
  | stop =>
    simp only [step]
    split_ifs
    · exact h.autoStop false
    · exact h
  | delete =>
    simp only [step]
    split_ifs
    · exact h.autoStop true
    · exact h
  | joined =>
    simp only [step]
    split
    · rename_i deleting huser _
      exact h.joined huser
    · exact h
  | thread ok =>
    simp only [step]
    split
    · rename_i pc hpc
      exact h.threadStep ok (hok pc hpc)
    · exact h

theorem inv_create : create.Inv := ⟨nofun, nofun, nofun, nofun, Nat.zero_le _⟩

end ClientAuto

/-- **A stopped object stays stopped unless its thread writes late.** Take any interleaving of
starts, stops and deletion with the auto-reconnect thread, whatever its connection attempts, pings
and polls bring. If the thread does not write the state once `running` was cleared, then after a
stop that returned true the state is `STOPPED`, so that a start is accepted and another stop or the
deletion does not join, and no thread is joined twice. -/
theorem stopHolds_of_noLateWrite (es : List AutoEvent)
    (hes : Runs.EachStep ClientAuto.step ClientAuto.NoLateWrite .create es) :
    Runs.Always ClientAuto.step ClientAuto.StopHolds .create es :=
  Runs.always_of_invariant ClientAuto.inv_step (fun _ h => h.stopHolds) ClientAuto.inv_create hes

/-- The thread connects and pings; it is stopped while it sleeps, and the object is started again
and deleted. -/
theorem stop_while_sleeping :
    Runs.Always ClientAuto.step ClientAuto.StopHolds .create
      (.start true :: List.replicate 8 (.thread true) ++
        [.stop, .thread true, .thread true, .joined, .start true, .delete]) := by
  apply stopHolds_of_noLateWrite
  simp only [List.replicate, List.cons_append, List.nil_append, Runs.eachStep_cons,
    Runs.eachStep_nil, and_true]
  decide

/-- The thread is stopped while it connects, and the connection is made. -/
def stoppedLate : List AutoEvent :=
  [.start true, .thread true, .stop] ++ List.replicate 4 (.thread true) ++ [.joined]

/-- The thread writes `CONNECTED` over `STOPPED` and then leaves its loop, and the stop returns
true. The next start is refused, and the next stop joins the thread a second time. -/
theorem stop_while_connecting :
    ¬ Runs.Always ClientAuto.step ClientAuto.StopHolds .create stoppedLate ∧
      (Runs.run ClientAuto.step .create
        (stoppedLate ++ [.start true, .stop, .joined])).joins = 2 := by
  refine ⟨fun h => ?_, by decide⟩
  have hstate := (h _ (List.prefix_refl _)).stopped (by decide)
  revert hstate
  decide

end Ssn
