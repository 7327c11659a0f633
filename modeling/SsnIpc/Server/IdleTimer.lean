import SsnIpc.Frame.RoundTrip
import SsnIpc.Server.Timers

/-!
# When a timer may end a connection

The countdown of a client stands for the handshake timeout until its first packet and, if there is
an idle timeout, for the idle timeout from then on. An observer counts sweeps instead: since the
client was accepted, and since its last packet (`Clock`).

**Theorem (`eventFair_of_revived`).** In every run in which each packet of a client whose timer
already ran out is a SERVICE_INFO, the timer's event ends a connection only after as many sweeps
as its timeout takes. The idle timeout in milliseconds must be an `int`.

The condition is needed. The reset in `ssn_server_input` skips a countdown that stands at 0, so a
packet that arrives between the sweep that ran it out and the event does not save its client
(`busy_client_expires`). SERVICE_INFO writes the countdown anyway.

The invariant is one inequality per client (`Tracks`): what is left on the countdown and the
sweeps counted so far make up the timeout.
-/

namespace Ssn

open ByteMem

variable {keepalive handshake : Int}

/-! ## Counting sweeps -/

/-- What an observer notes of a client: sweeps since it was accepted, sweeps since its last packet
if it had one, and whether a SERVICE_INFO was among its packets. -/
structure Clock where
  sinceAccept : Nat
  sincePacket : Option Nat
  info : Bool
  deriving DecidableEq

namespace Clock

def zero : Clock := ⟨0, none, false⟩

def tick (c : Clock) : Clock :=
  { c with sinceAccept := c.sinceAccept + 1, sincePacket := c.sincePacket.map (· + 1) }

def packet (f : Frame) (c : Clock) : Clock :=
  { c with sincePacket := some 0, info := c.info || getMsgType f = MsgType.serviceInfo }

end Clock

/-- Timers and the clocks of an observer. -/
structure Watched where
  timers : Timers
  clock : UInt32 → Clock

namespace Watched

def init : Watched := ⟨fun _ => none, fun _ => .zero⟩

/-- One event, and what the observer makes of it. -/
def step (keepalive handshake : Int) (s : Watched) (e : TimerEvent) : Watched where
  timers := e.step keepalive handshake s.timers
  clock :=
    match e with
    | .accepted id => if (s.timers id).isSome then s.clock else Function.update s.clock id .zero
    | .frame id f => Function.update s.clock id ((s.clock id).packet f)
    | .sweep => fun id => (s.clock id).tick
    | .event | .closed _ => s.clock

end Watched

/-- The sweeps that a time in milliseconds takes, rounded up. -/
def sweepsIn (ms : Int) : Int := (ms + (timerPeriod - 1)) / timerPeriod

/-- The timeout of the client has passed: the idle timeout since its last packet, or the handshake
timeout if it had none; without idle timeout, the handshake timeout, and there was no
SERVICE_INFO. -/
def MayExpire (keepalive handshake : Int) (c : Clock) : Prop :=
  if 0 < keepalive then
    c.sincePacket.elim (sweepsIn handshake ≤ c.sinceAccept) fun n => sweepsIn (1000 * keepalive) ≤ n
  else c.info = false ∧ sweepsIn handshake ≤ c.sinceAccept

/-- The timer's event ends connections only after their timeout. -/
def EventFair (keepalive handshake : Int) (s : Watched) (e : TimerEvent) : Prop :=
  e = .event → ∀ id, (s.timers id).isSome = true →
    (s.step keepalive handshake e).timers id = none → MayExpire keepalive handshake (s.clock id)

/-- If there is an idle timeout, a packet of a client whose timer already ran out is a
SERVICE_INFO. -/
def Revived (keepalive : Int) (s : Watched) (e : TimerEvent) : Prop :=
  ∀ id f h, e = .frame id f → 0 < keepalive → s.timers id = some h → h.expired = true →
    getMsgType f = MsgType.serviceInfo

/-! ## The invariant -/

/-- `alive` milliseconds and the sweeps counted make up the timeout. -/
def MakesUp (keepalive handshake : Int) (c : Clock) (alive : Int) : Prop :=
  if 0 < keepalive then
    c.sincePacket.elim (handshake ≤ alive + timerPeriod * c.sinceAccept)
      fun n => keepalive * 1000 ≤ alive + timerPeriod * n
  else c.info = false ∧ handshake ≤ alive + timerPeriod * c.sinceAccept

/-- The countdown of a timer in the list and its sweeps make up the timeout. -/
def Tracks (keepalive handshake : Int) (c : Clock) (h : Hst) : Prop :=
  h.linked = true → MakesUp keepalive handshake c h.alive

theorem sweepsIn_le {ms : Int} {n : Nat} (h : ms ≤ timerPeriod * n) : sweepsIn ms ≤ n := by
  unfold sweepsIn
  simp only [timerPeriod] at *
  omega

theorem mayExpire_of_makesUp {c : Clock} (h : MakesUp keepalive handshake c 0) :
    MayExpire keepalive handshake c := by
  unfold MakesUp at h
  unfold MayExpire
  simp only [Int.zero_add] at h
  split_ifs at h ⊢ with hk
  · cases hp : c.sincePacket with
    | none =>
      rw [hp] at h
      exact sweepsIn_le h
    | some n =>
      rw [hp, Option.elim_some, Int.mul_comm] at h
      exact sweepsIn_le h
  · exact ⟨h.1, sweepsIn_le h.2⟩

theorem tracks_start : Tracks keepalive handshake .zero (Hst.start handshake) := by
  intro _
  unfold MakesUp
  split_ifs with hk
  · simp [Clock.zero, Hst.start]
  · simp [Clock.zero, Hst.start]

/-- A sweep counts for 50 ms, and takes at most as much off the countdown. -/
theorem Tracks.sweep {c : Clock} {h : Hst} (ht : Tracks keepalive handshake c h) :
    Tracks keepalive handshake c.tick h.sweep := by
  intro hl
  have hlinked : h.linked = true := by rwa [Hst.linked_sweep] at hl
  have hleft : h.alive ≤ h.sweep.alive + timerPeriod := by
    rw [Hst.alive_sweep hlinked]
    split_ifs <;> omega
  have hsum := ht hlinked
  unfold MakesUp at hsum ⊢
  split_ifs at hsum ⊢ with hk
  · cases hp : c.sincePacket with
    | none =>
      simp only [Clock.tick, hp, Option.map_none, Option.elim_none, timerPeriod] at *
      push_cast
      omega
    | some n =>
      simp only [Clock.tick, hp, Option.map_some, Option.elim_some, timerPeriod] at *
      push_cast
      omega
  · refine ⟨hsum.1, ?_⟩
    simp only [Clock.tick, timerPeriod] at *
    push_cast
    omega

/-- A packet starts the countdown over, unless it stands at 0 and the packet is no SERVICE_INFO. -/
theorem Tracks.frame {c : Clock} {h : Hst} {f : Frame} (hfits : 1000 * keepalive ≤ intMax)
    (ht : Tracks keepalive handshake c h)
    (hr : 0 < keepalive → h.expired = true → getMsgType f = MsgType.serviceInfo) :
    Tracks keepalive handshake (c.packet f) (h.frame keepalive f) := by
  intro hl
  by_cases hk : 0 < keepalive
  · have hlinked : h.linked = true := by
      unfold Hst.frame Hst.startIdle Hst.touch at hl
      split_ifs at hl <;> exact hl
    have halive : (h.frame keepalive f).alive = keepalive * 1000 := by
      rw [← idleMs_of_le hk hfits]
      unfold Hst.frame Hst.startIdle
      rw [if_pos hk]
      split_ifs with hf
      · rfl
      · have hne : h.alive ≠ 0 := fun h0 => hf (hr hk (by simp [Hst.expired, hlinked, h0]))
        rw [Hst.touch, if_pos ⟨hk, hne⟩]
    unfold MakesUp
    rw [if_pos hk, halive]
    simp [Clock.packet]
  · have htouch : h.touch keepalive = h := if_neg fun h => hk h.1
    unfold Hst.frame at hl ⊢
    rw [htouch] at hl ⊢
    by_cases hf : getMsgType f = MsgType.serviceInfo
    · -- Without idle timeout the node of a client with a SERVICE_INFO is not in the list.
      rw [if_pos hf, Hst.startIdle, if_neg hk] at hl
      split_ifs at hl with hh
      exact absurd hl hh
    · rw [if_neg hf] at hl ⊢
      have hsum := ht hl
      unfold MakesUp at hsum ⊢
      rw [if_neg hk] at hsum ⊢
      exact ⟨by simp [Clock.packet, hsum.1, hf], hsum.2⟩

namespace Watched

def Inv (keepalive handshake : Int) (s : Watched) : Prop :=
  ∀ id h, s.timers id = some h → Tracks keepalive handshake (s.clock id) h

variable {s : Watched}

theorem Inv.step (hfits : 1000 * keepalive ≤ intMax) (hs : s.Inv keepalive handshake)
    (e : TimerEvent) (hr : Revived keepalive s e) :
    (s.step keepalive handshake e).Inv keepalive handshake := by
  intro id h ht
  cases e with
  | accepted id' =>
    simp only [Watched.step, TimerEvent.step] at ht ⊢
    split_ifs at ht ⊢ with hsome
    · exact hs id h ht
    · by_cases e : id = id'
      · subst e
        rw [Function.update_self] at ht ⊢
        obtain rfl := Option.some.inj ht
        exact tracks_start
      · rw [Function.update_of_ne e] at ht ⊢
        exact hs id h ht
  | frame id' f =>
    simp only [Watched.step, TimerEvent.step] at ht ⊢
    by_cases e : id = id'
    · subst e
      rw [Function.update_self] at ht ⊢
      obtain ⟨h', hh', rfl⟩ := Option.map_eq_some_iff.1 ht
      exact (hs id h' hh').frame hfits fun hk hexp => hr id f h' rfl hk hh' hexp
    · rw [Function.update_of_ne e] at ht ⊢
      exact hs id h ht
  | sweep =>
    obtain ⟨h', hh', rfl⟩ := Option.map_eq_some_iff.1 ht
    exact (hs id h' hh').sweep
  | event => exact hs id h (Option.filter_eq_some_iff.1 ht).1
  | closed id' =>
    simp only [Watched.step, TimerEvent.step] at ht
    by_cases e : id = id'
    · subst e
      rw [Function.update_self] at ht
      cases ht
    · rw [Function.update_of_ne e] at ht
      exact hs id h ht

/-- The event finds a countdown at 0, so the sweeps alone make up the timeout. -/
theorem Inv.eventFair (hs : s.Inv keepalive handshake) (e : TimerEvent) :
    EventFair keepalive handshake s e := by
  rintro rfl id hsome hnone
  obtain ⟨h, hh⟩ := Option.isSome_iff_exists.1 hsome
  have hexp : h.expired = true := by
    by_contra hne
    simp [Watched.step, TimerEvent.step, hh, Option.filter_some, hne] at hnone
  obtain ⟨hlinked, halive⟩ : h.linked = true ∧ h.alive = 0 := by
    simpa [Hst.expired] using hexp
  have hsum := hs id h hh hlinked
  rw [halive] at hsum
  exact mayExpire_of_makesUp hsum

end Watched

/-! ## Runs -/

/-- **The timers end connections in time and not before, unless a packet comes too late.** In
every run in which each packet of a client whose timer already ran out is a SERVICE_INFO, the
timer's event ends a connection only after the sweeps its timeout takes. -/
theorem eventFair_of_revived (keepalive handshake : Int) (hfits : 1000 * keepalive ≤ intMax)
    (es : List TimerEvent)
    (hrev : Runs.EachStep (Watched.step keepalive handshake) (Revived keepalive) .init es) :
    Runs.EachStep (Watched.step keepalive handshake) (EventFair keepalive handshake) .init es := by
  intro pre e hpre
  have hinv : (Runs.run (Watched.step keepalive handshake) .init pre).Inv keepalive handshake := by
    refine Runs.run_invariant (fun s e hs hr => hs.step hfits e hr) (fun _ _ h => nomatch h)
      fun pre' e' h' => hrev pre' e' ?_
    exact h'.trans ((List.prefix_append pre [e]).trans hpre)
  exact hinv.eventFair e

/-- A client completes its handshake and is silent for a second, then sends a packet. -/
def lastMinute (msgType : UInt8) : List TimerEvent :=
  [.accepted 0, .frame 0 (bareFrame MsgType.serviceInfo 0)] ++
    List.replicate 20 .sweep ++ [.frame 0 (bareFrame msgType 1)]

/-- A SERVICE_INFO saves it from the timer's event. -/
theorem eventFair_lastMinute :
    Runs.EachStep (Watched.step 1 5000) (EventFair 1 5000) .init
      (lastMinute MsgType.serviceInfo ++ [.event]) := by
  refine eventFair_of_revived 1 5000 (by decide) _ ?_
  intro pre e hpre id f h he _ _ _
  have hmem : e ∈ lastMinute MsgType.serviceInfo ++ [.event] := hpre.subset (by simp)
  subst he
  have hf : f = bareFrame MsgType.serviceInfo 0 ∨ f = bareFrame MsgType.serviceInfo 1 := by
    simp [lastMinute] at hmem
    exact hmem.imp And.right And.right
  rcases hf with rfl | rfl
  · decide +kernel
  · decide +kernel

/-- A PING does not: with an idle timeout of one second the event ends the connection although
there was no sweep since its last packet. -/
theorem busy_client_expires :
    ¬ Runs.EachStep (Watched.step 1 5000) (EventFair 1 5000) .init
      (lastMinute MsgType.pingEcho ++ [.event]) := by
  intro h
  have hfair := h (lastMinute MsgType.pingEcho) .event (List.prefix_refl _) rfl 0
    (by decide +kernel) (by decide +kernel)
  have hclock : (Runs.run (Watched.step 1 5000) .init (lastMinute MsgType.pingEcho)).clock 0 =
      ⟨20, some 0, true⟩ := by decide +kernel
  rw [hclock] at hfair
  have hsweeps : sweepsIn 1000 ≤ (0 : Nat) := hfair
  exact absurd hsweeps (by decide)

end Ssn
