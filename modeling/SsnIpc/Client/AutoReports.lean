import Mathlib.Data.List.Chain
import SsnIpc.Client.AutoReconnect

/-!
# What the auto-reconnect thread reports

The thread calls the user's connection callback: with true once it has connected and subscribed, and
with false when it finds the connection lost. It looks for that at two places in one round, the
number of lost pings and the client's own state after the poll.

**Theorem (`alternate_iff`).** The calls alternate and begin with true, and every connection is
reported lost at most once, exactly in the runs in which no poll finds the connection closed in the
round that has just reported the last lost ping, and no restart of an object that was stopped while
connected connects.

After a third lost ping the thread goes on to the poll, and if the server is really gone it reports
the loss again (`lostTwice_reported`).
-/

namespace Ssn

/-- An auto-reconnect client with the calls of its connection callback. `losses` counts those with
false since the last connection was made, and `restarted` tells whether the object was started since
a call with true. -/
structure AutoReports where
  auto : ClientAuto
  reports : List Bool
  losses : Nat
  restarted : Bool

namespace AutoReports

/-- `ssn_client_auto_create`, and `ssn_client_auto_setup` with a callback. -/
def create : AutoReports := ⟨.create, [], 0, false⟩

/-- What was last reported. Before the first call there is no connection. -/
def last (w : AutoReports) : Bool := w.reports.getLast?.getD false

def onconn (w : AutoReports) (connect : Bool) : AutoReports :=
  { w with
    reports := w.reports ++ [connect]
    losses := if connect then w.losses else w.losses + 1
    restarted := false }

def threadStep (w : AutoReports) (pc : AutoPc) (ok : Bool) : AutoReports :=
  let w := { w with auto := w.auto.threadStep pc ok }
  match pc with
  | .connectedWrite => { w with losses := 0 }
  | .announcing => w.onconn true
  | .pingLostWrite => w.onconn false
  | .closedWrite => w.onconn false
  | _ => w

def step (w : AutoReports) (e : AutoEvent) : AutoReports :=
  match e with
  | .start created =>
    { w with
      auto := w.auto.step e
      restarted := if w.auto.user = .outside ∧ w.auto.atRest ∧ created then w.last
        else w.restarted }
  | .thread ok =>
    match w.auto.thread with
    | some pc => w.threadStep pc ok
    | none => w
  | e => { w with auto := w.auto.step e }

/-- The calls alternate, beginning with true, and the present connection was reported lost at most
once. -/
structure Alternate (w : AutoReports) : Prop where
  chain : (false :: w.reports).IsChain (· ≠ ·)
  once : w.losses ≤ 1

/-- The thread does not find the connection closed in a round in which too many pings were lost, and
does not connect after a restart that followed a call with true. -/
def Single (w : AutoReports) : AutoEvent → Prop
  | .thread _ =>
    (w.auto.thread = some .closedWrite → w.auto.pingLost < maxPingLost) ∧
      (w.auto.thread = some .announcing → w.restarted = false)
  | _ => True

variable {w : AutoReports}

theorem auto_threadStep (pc : AutoPc) (ok : Bool) :
    (w.threadStep pc ok).auto = w.auto.threadStep pc ok := by
  cases pc <;> rfl

/-- The reports are about a run of the object. -/
theorem auto_step (e : AutoEvent) : (w.step e).auto = w.auto.step e := by
  cases e with
  | thread ok =>
    simp only [step, ClientAuto.step]
    cases h : w.auto.thread with
    | none => rfl
    | some pc => exact auto_threadStep pc ok
  | _ => rfl

theorem auto_run (es : List AutoEvent) :
    (Runs.run step w es).auto = Runs.run ClientAuto.step w.auto es := by
  induction es generalizing w with
  | nil => rfl
  | cons e es ih => rw [Runs.run_cons, ih, auto_step, Runs.run_cons]

/-! ## Calls -/

theorem last_onconn (b : Bool) : (w.onconn b).last = b := by
  simp [last, onconn]

theorem chain_onconn (b : Bool) :
    (false :: (w.onconn b).reports).IsChain (· ≠ ·) ↔
      (false :: w.reports).IsChain (· ≠ ·) ∧ w.last ≠ b := by
  have hcons : false :: (w.onconn b).reports = (false :: w.reports) ++ [b] := rfl
  rw [hcons, List.isChain_append]
  simp [last, List.getLast?_cons]

/-! ## What the thread expects -/

/-- The connection that was made stands, or the object was stopped. -/
def Live (state : AutoState) : Prop := state = .connected ∨ state = .stopped

/-- A connection that is being made has not been reported, unless before a restart. -/
def Fresh (last restarted : Bool) : Prop := last = true → restarted = true

/-- What the state that the thread reads at the head of its loop says about the reports. -/
structure AtTop (last restarted : Bool) (state : AutoState) (pingLost : Nat) : Prop where
  connecting : state = .connecting → Fresh last restarted
  connected : state = .connected → last = true ∧ pingLost < maxPingLost
  disconnected : state = .disconnected → last = false

/-- What holds after the ping of a round. -/
structure AfterPing (last : Bool) (state : AutoState) (pingLost : Nat) : Prop where
  alive : pingLost < maxPingLost → last = true ∧ Live state
  lost : maxPingLost ≤ pingLost → last = false ∧ (state = .disconnected ∨ state = .stopped)

def ExpectsAt (last restarted : Bool) (losses : Nat) (state : AutoState) (pingLost : Nat) :
    AutoPc → Prop
  | .top | .retrySleep | .keepaliveSleep | .condWait => AtTop last restarted state pingLost
  | .connecting => AtTop last restarted state pingLost ∧ Fresh last restarted
  | .connectedWrite => Fresh last restarted
  | .announcing =>
    Fresh last restarted ∧ Live state ∧ pingLost < maxPingLost ∧ losses = 0
  | .pinging | .pingFailed => last = true ∧ Live state ∧ pingLost < maxPingLost
  | .pingOk => last = true ∧ Live state
  | .pingLostWrite => last = true ∧ maxPingLost ≤ pingLost
  | .polling | .closedWrite => AfterPing last state pingLost
  | .reconnSleep | .reconnWrite => last = false
  | .exited => True

def Expects (w : AutoReports) (pc : AutoPc) : Prop :=
  ExpectsAt w.last w.restarted w.losses w.auto.state w.auto.pingLost pc

section Expectations

variable {last restarted : Bool} {state : AutoState} {pingLost : Nat}

theorem AtTop.of_live (hlast : last = true) (hlive : Live state) (hping : pingLost < maxPingLost) :
    AtTop last restarted state pingLost := by
  rcases hlive with rfl | rfl
  · exact ⟨by simp, fun _ => ⟨hlast, hping⟩, by simp⟩
  · exact ⟨by simp, by simp, by simp⟩

theorem AtTop.of_lost (hlast : last = false) (hstate : state ≠ .connected) :
    AtTop last restarted state pingLost :=
  ⟨fun _ => by simp [Fresh, hlast], fun h => absurd h hstate, fun _ => hlast⟩

theorem AfterPing.atTop (h : AfterPing last state pingLost) :
    AtTop last restarted state pingLost := by
  rcases Nat.lt_or_ge pingLost maxPingLost with hping | hping
  · obtain ⟨hlast, hlive⟩ := h.alive hping
    exact .of_live hlast hlive hping
  · obtain ⟨hlast, hstate⟩ := h.lost hping
    refine .of_lost hlast ?_
    rcases hstate with rfl | rfl <;> simp

theorem ExpectsAt.stopped {losses : Nat} {pc : AutoPc}
    (h : ExpectsAt last restarted losses state pingLost pc) :
    ExpectsAt last restarted losses .stopped pingLost pc := by
  have hlive : Live .stopped := .inr rfl
  have htop : AtTop last restarted .stopped pingLost := ⟨by simp, by simp, by simp⟩
  cases pc with
  | top | retrySleep | keepaliveSleep | condWait => exact htop
  | connecting => exact ⟨htop, h.2⟩
  | announcing | pinging | pingFailed => exact ⟨h.1, hlive, h.2.2⟩
  | pingOk => exact ⟨h.1, hlive⟩
  | polling | closedWrite =>
    exact ⟨fun halive => ⟨(h.alive halive).1, hlive⟩, fun hlost => ⟨(h.lost hlost).1, .inr rfl⟩⟩
  | connectedWrite | pingLostWrite | reconnSleep | reconnWrite | exited => exact h

end Expectations

/-- The reports alternate so far, and the thread is where they say. -/
structure Inv (w : AutoReports) : Prop where
  chain : (false :: w.reports).IsChain (· ≠ ·)
  losses : w.losses + w.last.toNat ≤ 1
  restarted : w.restarted = true → w.last = true
  expects : ∀ pc, w.auto.thread = some pc → w.Expects pc

theorem Inv.alternate (h : w.Inv) : w.Alternate :=
  ⟨h.chain, Nat.le_of_add_right_le h.losses⟩

theorem inv_create : create.Inv := by
  refine ⟨List.isChain_singleton _, Nat.zero_le _, ?_, ?_⟩
  · intro h
    cases h
  · intro pc h
    cases h

/-! ## Steps -/

theorem Inv.quiet (h : w.Inv) {auto : ClientAuto} {losses : Nat} (hl : losses ≤ w.losses)
    (hexp : ∀ pc, auto.thread = some pc → Expects { w with auto, losses } pc) :
    Inv { w with auto, losses } :=
  ⟨h.chain, (Nat.add_le_add_right hl _).trans h.losses, h.restarted, hexp⟩

/-- A step of the thread without a call leads to `next`. -/
theorem Inv.goto (h : w.Inv) {auto : ClientAuto} (next : AutoPc) (hpc : auto.thread = some next)
    (hexp : Expects { w with auto } next) : Inv { w with auto } := by
  refine h.quiet (Nat.le_refl _) fun pc hpc' => ?_
  obtain rfl := Option.some.inj (hpc.symm.trans hpc')
  exact hexp

/-- A step of the thread that reports a change. -/
theorem Inv.report (h : w.Inv) {auto : ClientAuto} {b : Bool} (next : AutoPc) (hlast : w.last ≠ b)
    (hlosses : b = true → w.losses = 0) (hpc : auto.thread = some next)
    (hexp : Expects (onconn { w with auto } b) next) : Inv (onconn { w with auto } b) := by
  refine ⟨(chain_onconn b).2 ⟨h.chain, hlast⟩, ?_, ?_, fun pc hpc' => ?_⟩
  · have hsum := h.losses
    rw [last_onconn]
    cases b with
    | true => simp [onconn, hlosses rfl]
    | false =>
      rw [Bool.ne_false_iff.1 hlast] at hsum
      simpa [onconn] using hsum
  · intro hr
    cases hr
  · obtain rfl := Option.some.inj (hpc.symm.trans hpc')
    exact hexp

theorem Inv.threadStep (h : w.Inv) {pc : AutoPc} (hpc : w.auto.thread = some pc) (ok : Bool)
    (hok : w.Single (.thread ok)) : (w.threadStep pc ok).Inv := by
  have hexp : w.Expects pc := h.expects pc hpc
  cases pc with
  | top =>
    cases hrun : w.auto.running with
    | false =>
      refine h.goto .exited ?_ trivial
      simp [ClientAuto.threadStep, hrun]
    | true =>
      refine h.goto (ClientAuto.branch w.auto.state) ?_ ?_
      · simp [ClientAuto.threadStep, hrun]
      · cases hs : w.auto.state with
        | idle => exact hexp
        | connecting => exact ⟨hexp, hexp.connecting hs⟩
        | connected =>
          obtain ⟨hlast, hping⟩ := hexp.connected hs
          exact ⟨hlast, .inl hs, hping⟩
        | disconnected => exact hexp.disconnected hs
        | stopped => trivial
  | connecting =>
    cases ok with
    | true => exact h.goto .connectedWrite rfl hexp.2
    | false => exact h.goto .retrySleep rfl hexp.1
  | connectedWrite =>
    refine h.quiet (Nat.zero_le _) fun pc hpc' => ?_
    obtain rfl := Option.some.inj hpc'
    exact ⟨hexp, .inl rfl, Nat.zero_lt_succ _, rfl⟩
  | announcing =>
    obtain ⟨hfresh, hlive, hping, hlosses⟩ := hexp
    have hlast : w.last ≠ true := by
      intro hlast
      have hr := hfresh hlast
      simp [hok.2 hpc] at hr
    exact h.report .top hlast (fun _ => hlosses) rfl
      (.of_live (last_onconn true) hlive hping)
  | retrySleep => exact h.goto .top rfl hexp
  | pinging =>
    cases ok with
    | true => exact h.goto .pingOk rfl ⟨hexp.1, hexp.2.1⟩
    | false => exact h.goto .pingFailed rfl hexp
  | pingOk =>
    refine h.goto .polling rfl ⟨fun _ => hexp, fun hlost => ?_⟩
    exact absurd hlost (Nat.not_succ_le_zero _)
  | pingFailed =>
    obtain ⟨hlast, hlive, -⟩ := hexp
    by_cases hmax : maxPingLost ≤ w.auto.pingLost + 1
    · refine h.goto .pingLostWrite ?_ ⟨hlast, hmax⟩
      simp [ClientAuto.threadStep, hmax]
    · refine h.goto .polling ?_ ⟨fun _ => ⟨hlast, hlive⟩, fun hlost => absurd hlost hmax⟩
      simp [ClientAuto.threadStep, hmax]
  | pingLostWrite =>
    obtain ⟨hlast, hping⟩ := hexp
    refine h.report .polling (by simp [hlast]) (by simp) rfl ⟨fun halive => ?_, fun _ => ?_⟩
    · exact absurd hping (Nat.not_le.2 halive)
    · exact ⟨last_onconn false, .inl rfl⟩
  | polling =>
    cases ok with
    | true => exact h.goto .keepaliveSleep rfl hexp.atTop
    | false => exact h.goto .closedWrite rfl hexp
  | closedWrite =>
    -- the ping of this round was not the one that reported the loss
    obtain ⟨hlast, -⟩ := hexp.alive (hok.1 hpc)
    refine h.report .keepaliveSleep (by simp [hlast]) (by simp) rfl ?_
    exact .of_lost (last_onconn false) (by simp [onconn, ClientAuto.threadStep])
  | keepaliveSleep => exact h.goto .top rfl hexp
  | reconnSleep => exact h.goto .reconnWrite rfl hexp
  | reconnWrite =>
    refine h.goto .top rfl (.of_lost hexp ?_)
    simp [ClientAuto.threadStep]
  | condWait => exact h.goto .top rfl hexp
  | exited => exact h.goto .exited hpc trivial

theorem Inv.user (h : w.Inv) {auto : ClientAuto} (hthread : auto.thread = w.auto.thread)
    (hstate : auto.state = w.auto.state ∨ auto.state = .stopped)
    (hping : auto.pingLost = w.auto.pingLost ∨ w.auto.thread = some .exited) :
    Inv { w with auto } := by
  refine h.quiet (Nat.le_refl _) fun pc hpc => ?_
  rw [hthread] at hpc
  have hexp := h.expects pc hpc
  rcases hping with hping | hexited
  · change ExpectsAt w.last w.restarted w.losses auto.state auto.pingLost pc
    rw [hping]
    rcases hstate with hstate | hstate
    · rw [hstate]
      exact hexp
    · rw [hstate]
      exact hexp.stopped
  · obtain rfl := Option.some.inj (hexited.symm.trans hpc)
    trivial

theorem Inv.started (h : w.Inv) {auto : ClientAuto} (hthread : auto.thread = some .top)
    (hstate : auto.state = .connecting) : Inv { w with auto, restarted := w.last } := by
  refine ⟨h.chain, h.losses, fun hr => hr, fun pc hpc => ?_⟩
  obtain rfl := Option.some.inj (hthread.symm.trans hpc)
  refine ⟨fun _ hlast => hlast, fun hs => ?_, fun hs => ?_⟩
  · cases hstate.symm.trans hs
  · cases hstate.symm.trans hs

theorem Inv.start (h : w.Inv) (created : Bool) : (w.step (.start created)).Inv := by
  simp only [step, ClientAuto.step]
  by_cases hout : w.auto.user = .outside
  · rw [if_pos hout, ClientAuto.autoStart]
    by_cases hrest : w.auto.atRest = true
    · cases created with
      | true =>
        rw [if_pos hrest, if_pos rfl, if_pos ⟨hout, hrest, rfl⟩]
        exact h.started rfl rfl
      | false =>
        rw [if_pos hrest, if_neg Bool.false_ne_true, if_neg (by simp)]
        exact h.user rfl (.inr rfl) (.inl rfl)
    · rw [if_neg hrest, if_neg fun hs => hrest hs.2.1]
      exact h
  · rw [if_neg hout, if_neg fun hs => hout hs.1]
    exact h

theorem Inv.stop (h : w.Inv) (deleting : Bool) :
    Inv { w with auto := if w.auto.user = .outside then w.auto.autoStop deleting else w.auto } := by
  unfold ClientAuto.autoStop
  split_ifs
  · exact h.user rfl (.inl rfl) (.inl rfl)
  · exact h
  · exact h.user rfl (.inr rfl) (.inl rfl)
  · exact h

theorem inv_step (w : AutoReports) (e : AutoEvent) (h : w.Inv) (hok : w.Single e) :
    (w.step e).Inv := by
  cases e with
  | start created => exact h.start created
  | stop => exact h.stop false
  | delete => exact h.stop true
  | joined =>
    simp only [step, ClientAuto.step]
    split
    · rename_i hexited
      exact h.user rfl (.inl rfl) (.inr hexited)
    · exact h
  | thread ok =>
    simp only [step]
    split
    · rename_i pc hpc
      exact h.threadStep hpc ok hok
    · exact h

theorem not_alternate (w : AutoReports) (e : AutoEvent) (h : w.Inv) (hbad : ¬ w.Single e) :
    ¬ (w.step e).Alternate := by
  intro halt
  apply hbad
  cases e with
  | thread ok =>
    refine ⟨fun hpc => ?_, fun hpc => ?_⟩
    · -- after the report of the lost pings a loss is the last report
      by_contra hping
      obtain ⟨hlast, -⟩ := (h.expects _ hpc).lost (Nat.not_lt.1 hping)
      have hchain := halt.chain
      simp only [step, hpc] at hchain
      exact ((chain_onconn false).1 hchain).2 hlast
    · rw [Bool.eq_false_iff]
      intro hr
      have hchain := halt.chain
      simp only [step, hpc] at hchain
      exact ((chain_onconn true).1 hchain).2 (h.restarted hr)
  | _ => trivial

end AutoReports

/-- **Reports:** whatever the attempts to connect, the pings and the polls bring, and however the
object is started and stopped, the calls of the connection callback alternate and begin with true,
and each connection is reported lost at most once, exactly when no poll finds the connection closed
in a round that has reported it lost already, and no connection follows a restart from a connection
that was never reported lost. -/
theorem alternate_iff (es : List AutoEvent) :
    Runs.Always AutoReports.step AutoReports.Alternate .create es ↔
      Runs.EachStep AutoReports.step AutoReports.Single .create es :=
  Runs.always_iff_eachStep (fun w e h _ hok => AutoReports.inv_step w e h hok)
    (fun _ h => h.alternate) (fun w e h _ hbad => AutoReports.not_alternate w e h hbad)
    AutoReports.inv_create Runs.eachStep_true

/-- The thread connects, two pings are lost, and then the third one; the poll after it finds the
connection closed. -/
def lostTwice : List AutoEvent :=
  .start true :: List.replicate 5 (.thread true) ++
    [.thread false, .thread true, .thread true, .thread true, .thread true,
     .thread false, .thread true, .thread true, .thread true, .thread true,
     .thread false, .thread true, .thread true, .thread false, .thread true]

/-- The connection is reported lost twice. -/
theorem lostTwice_reported :
    (Runs.run AutoReports.step .create lostTwice).reports = [true, false, false] ∧
      (Runs.run AutoReports.step .create lostTwice).losses = 2 := by
  decide

end Ssn
