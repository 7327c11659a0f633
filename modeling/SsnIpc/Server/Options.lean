import Mathlib.Logic.Function.Iterate
import SsnIpc.Server.IdleTimer

/-!
# Timeouts as they are set

A server is created with timeouts of 64 bits. They are kept as `int`, and the idle timeout, which
is given in seconds, is multiplied by 1000 in `int`. So a long timeout can become a short one, or
a negative one, or none.

**Theorem (`kept_iff`).** Apart from packets that come too late for a timer that ran out (see
`eventFair_of_revived`), a client's countdown stays positive for as long as the options say, if
and only if both timeouts in milliseconds fit `int`.
-/

namespace Ssn

variable {β : Type*}

/-! ## Options -/

/-- `server_options_t`, without the name of a network interface. -/
structure ServerOptions where
  sendTimeoutMs : UInt64
  connTimeoutMs : UInt64
  idleTimeoutSec : UInt64
  maxConnections : UInt32

/-- The `int` that a 64-bit value is converted to. -/
def toInt (n : UInt64) : Int := (n.toNat : Int).bmod 0x100000000

namespace ServerOptions

def handshakeTimeout (o : ServerOptions) : Int :=
  if 0 < o.connTimeoutMs then toInt o.connTimeoutMs else 5000

/-- The idle timeout in effect, in seconds. -/
def keepaliveTimeout (o : ServerOptions) : Int := toInt o.idleTimeoutSec

def connectionLimit (o : ServerOptions) : UInt32 :=
  if 0 < o.maxConnections then o.maxConnections else 1020

end ServerOptions

/-- The settings of `ssn_server_create_with_options`. -/
def Server.createWithOptions : Option ServerOptions → Server β
  | some o => { Server.create o.keepaliveTimeout with
      sendTimeout := toInt o.sendTimeoutMs
      handshakeTimeout := o.handshakeTimeout
      maxConnections := o.connectionLimit }
  | none => Server.create 10

/-! ## Values that do not fit -/

theorem bmod_of_le {n : Int} (h0 : 0 ≤ n) (h : n ≤ intMax) : n.bmod 0x100000000 = n := by
  simp only [intMax] at h
  exact Int.bmod_eq_of_le (by omega) (by omega)

/-- What does not fit becomes less, by a multiple of $2^{32}$. -/
theorem bmod_of_lt {n : Int} (h : intMax < n) : n.bmod 0x100000000 + 0x100000000 ≤ n := by
  simp only [intMax] at h
  rw [Int.bmod_def]
  split <;> omega

theorem toInt_of_le {n : UInt64} (h : n.toNat ≤ intMax) : toInt n = n.toNat := by
  unfold toInt
  exact bmod_of_le (Int.natCast_nonneg _) h

theorem toInt_of_lt {n : UInt64} (h : intMax < n.toNat) : toInt n + 0x100000000 ≤ n.toNat := by
  unfold toInt
  exact bmod_of_lt h

/-! ## Sweeps -/

namespace Hst

theorem exists_sweeps {h : Hst} (hl : 0 < h.alive → h.linked = true) :
    ∃ n : Nat, (sweep^[n] h).alive ≤ 0 ∧ timerPeriod * n < max h.alive 0 + timerPeriod := by
  induction hk : h.alive.toNat using Nat.strongRecOn generalizing h with
  | ind k ih =>
    have hperiod : timerPeriod = 50 := rfl
    by_cases hpos : 0 < h.alive
    · have halive : h.sweep.alive = max (h.alive - timerPeriod) 0 := by
        rw [alive_sweep (hl hpos)]
        split_ifs <;> omega
      obtain ⟨n, hn, hlt⟩ := ih h.sweep.alive.toNat (by omega)
        (fun _ => (linked_sweep h).trans (hl hpos)) rfl
      refine ⟨n + 1, hn, ?_⟩
      push_cast
      rw [hperiod] at *
      omega
    · exact ⟨0, Int.not_lt.1 hpos, by omega⟩

end Hst

theorem Clock.tick_iterate (c : Clock) (n : Nat) : Clock.tick^[n] c =
    ⟨c.sinceAccept + n, c.sincePacket.map (· + n), c.info⟩ := by
  induction n generalizing c with
  | zero => simp
  | succ n ih =>
    rw [Function.iterate_succ_apply, ih, tick]
    simp only [Option.map_map, Clock.mk.injEq, and_true]
    refine ⟨by omega, ?_⟩
    cases c.sincePacket with
    | none => rfl
    | some m => exact congrArg some (by simp only [Function.comp]; omega)

namespace Watched

variable {keepalive handshake : Int} {s : Watched}

theorem run_sweeps (n : Nat) (id : UInt32) :
    (Runs.run (step keepalive handshake) s (List.replicate n .sweep)).timers id =
        (s.timers id).map Hst.sweep^[n] ∧
      (Runs.run (step keepalive handshake) s (List.replicate n .sweep)).clock id =
        Clock.tick^[n] (s.clock id) := by
  induction n generalizing s with
  | zero => simp
  | succ n ih =>
    obtain ⟨htimers, hclock⟩ := ih (s := s.step keepalive handshake .sweep)
    rw [List.replicate_succ, Runs.run_cons, htimers, hclock]
    exact ⟨by simp [step, TimerEvent.step, Option.map_map, Function.iterate_succ], rfl⟩

theorem exists_runOut {id : UInt32} {h : Hst} (hh : s.timers id = some h)
    (hl : 0 < h.alive → h.linked = true) :
    ∃ n h', let s' := Runs.run (step keepalive handshake) s (List.replicate n .sweep)
      s'.timers id = some h' ∧ h'.alive ≤ 0 ∧
        s'.clock id = ⟨(s.clock id).sinceAccept + n, (s.clock id).sincePacket.map (· + n),
          (s.clock id).info⟩ ∧
        timerPeriod * n < max h.alive 0 + timerPeriod := by
  obtain ⟨n, hn, hlt⟩ := Hst.exists_sweeps hl
  obtain ⟨htimers, hclock⟩ := @run_sweeps keepalive handshake s n id
  rw [hh] at htimers
  exact ⟨n, _, htimers, hn, hclock.trans (Clock.tick_iterate _ n), hlt⟩

theorem linked_update {timers : UInt32 → Option Hst} {v : Option Hst} (id' : UInt32)
    (hs : ∀ id h, timers id = some h → h.linked = true) (hv : ∀ h ∈ v, h.linked = true)
    (id : UInt32) (h : Hst) (ht : Function.update timers id' v id = some h) : h.linked = true := by
  by_cases e : id = id'
  · subst e
    rw [Function.update_self] at ht
    exact hv h ht
  · rw [Function.update_of_ne e] at ht
    exact hs id h ht

/-- With an idle timeout every timer stays in the list. -/
theorem linked_step (hk : 0 < keepalive) (e : TimerEvent)
    (hs : ∀ id h, s.timers id = some h → h.linked = true) :
    ∀ id h, (s.step keepalive handshake e).timers id = some h → h.linked = true := by
  intro id h ht
  cases e with
  | accepted id' =>
    simp only [step, TimerEvent.step] at ht
    split_ifs at ht
    · exact hs id h ht
    · refine linked_update id' hs (fun h hh => ?_) id h ht
      obtain rfl := Option.some.inj hh
      rfl
  | frame id' f =>
    refine linked_update id' hs (fun h hh => ?_) id h ht
    obtain ⟨h', hh', rfl⟩ := Option.map_eq_some_iff.1 hh
    have hl := hs id' h' hh'
    unfold Hst.frame Hst.startIdle Hst.touch
    split_ifs <;> exact hl
  | sweep =>
    obtain ⟨h', hh', rfl⟩ := Option.map_eq_some_iff.1 ht
    exact (Hst.linked_sweep h').trans (hs id h' hh')
  | event => exact hs id h (Option.filter_eq_some_iff.1 ht).1
  | closed id' =>
    refine linked_update id' hs (fun h hh => ?_) id h ht
    cases hh

end Watched

/-! ## When options are kept -/

/-- No client is marked expired early: without a packet before the connection timeout of the
options has passed since it was accepted, nor after its handshake before their idle timeout has
passed since its last packet. -/
def NotEarly (o : ServerOptions) (s : Watched) : Prop :=
  ∀ id h, s.timers id = some h →
    ((s.clock id).sincePacket = none →
      timerPeriod * (s.clock id).sinceAccept < o.connTimeoutMs.toNat → 0 < h.alive) ∧
    ∀ n : Nat, (s.clock id).info = true → (s.clock id).sincePacket = some n →
      timerPeriod * n < 1000 * o.idleTimeoutSec.toNat → 0 < h.alive

/-- What happens to the timers of a server with these options. -/
def ServerOptions.watch (o : ServerOptions) : Watched → TimerEvent → Watched :=
  Watched.step o.keepaliveTimeout o.handshakeTimeout

theorem Watched.timers_run {keepalive handshake : Int} (s : Watched) (es : List TimerEvent) :
    (Runs.run (Watched.step keepalive handshake) s es).timers =
      Runs.run (TimerEvent.step keepalive handshake) s.timers es := by
  induction es generalizing s with
  | nil => rfl
  | cons e es ih => exact ih (s.step keepalive handshake e)

/-- The timers of a server that was created with these options, in every run. -/
theorem timers_createWithOptions (o : ServerOptions) (net : Nat → Nat → SendStep)
    (ops : List ServerOp) :
    let w := World.init (Server.createWithOptions (some o) : Server β)
    (Runs.run (World.step net) w ops).view Client.hst =
      (Runs.run o.watch .init (w.timerTrace net ops)).timers := by
  intro w
  have hk : w.server.keepaliveTimeout = o.keepaliveTimeout := by
    simp only [w, World.init, Server.createWithOptions, Server.create]
  have hh : w.server.handshakeTimeout = o.handshakeTimeout := by
    simp only [w, World.init, Server.createWithOptions, Server.create]
  have hv : w.view Client.hst = Watched.init.timers := rfl
  rw [World.timers_run (World.tableOk_init _), hk, hh, hv, ServerOptions.watch, Watched.timers_run]

/-- Over all runs in which no packet but a SERVICE_INFO comes after its client's timer ran out, no
client is marked expired early. -/
def ServerOptions.Kept (o : ServerOptions) : Prop :=
  ∀ es, Runs.EachStep o.watch (Revived o.keepaliveTimeout) .init es →
    Runs.Always o.watch (NotEarly o) .init es

section Kept

variable {o : ServerOptions} {keepalive handshake : Int} {s : Watched}

theorem notEarly_of_inv (hconn : handshake = o.connTimeoutMs.toNat)
    (hidle : keepalive = o.idleTimeoutSec.toNat) (hk : 0 < keepalive)
    (hs : s.Inv keepalive handshake)
    (hlinked : ∀ id h, s.timers id = some h → h.linked = true) : NotEarly o s := by
  intro id h hh
  have hsum := hs id h hh (hlinked id h hh)
  rw [MakesUp, if_pos hk] at hsum
  constructor
  · intro hnone hlt
    rw [hnone, Option.elim_none] at hsum
    omega
  · intro n _ hsome hlt
    rw [hsome, Option.elim_some] at hsum
    omega

/-- Timeouts that arrive as they are set are kept, but for packets that come too late. -/
theorem always_notEarly (hconn : handshake = o.connTimeoutMs.toNat)
    (hidle : keepalive = o.idleTimeoutSec.toNat) (hk : 0 < keepalive)
    (hfits : 1000 * keepalive ≤ intMax) {es : List TimerEvent}
    (hrev : Runs.EachStep (Watched.step keepalive handshake) (Revived keepalive) .init es) :
    Runs.Always (Watched.step keepalive handshake) (NotEarly o) .init es := by
  refine Runs.always_of_invariant
    (fun s e (hs : s.Inv keepalive handshake ∧ ∀ id h, s.timers id = some h → h.linked = true) hr =>
      ⟨hs.1.step hfits e hr, Watched.linked_step hk e hs.2⟩)
    (fun s hs => notEarly_of_inv hconn hidle hk hs.1 hs.2) ⟨?_, ?_⟩ hrev
  · intro id h hh
    cases hh
  · intro id h hh
    cases hh

/-- The client `0` is accepted, and may complete its handshake; then there are sweeps only. -/
def arrival (info : Bool) (n : Nat) : List TimerEvent :=
  .accepted 0 :: (if info then [.frame 0 (bareFrame MsgType.serviceInfo 0)] else []) ++
    List.replicate n .sweep

theorem revived_arrival (info : Bool) (n : Nat) :
    Runs.EachStep (Watched.step keepalive handshake) (Revived keepalive) .init
      (arrival info n) := by
  refine Runs.eachStep_of_forall fun e he s id f h hf _ _ _ => ?_
  subst hf
  have hframe : f = bareFrame MsgType.serviceInfo 0 := by
    simp [arrival] at he
    exact he.2.2
  rw [hframe]
  decide +kernel

theorem run_arrival (info : Bool) (n : Nat) :
    Runs.run (Watched.step keepalive handshake) .init (arrival info n) =
      Runs.run (Watched.step keepalive handshake)
        (Runs.run (Watched.step keepalive handshake) .init (arrival info 0))
        (List.replicate n .sweep) := by
  rw [← Runs.run_append]
  simp [arrival]

/-- A countdown that starts well below the connection timeout marks a client expired early. -/
theorem early_conn (hless : max handshake 0 + timerPeriod ≤ o.connTimeoutMs.toNat) :
    ∃ n, ¬ NotEarly o (Runs.run (Watched.step keepalive handshake) .init (arrival false n)) := by
  have hstart : (Runs.run (Watched.step keepalive handshake) .init (arrival false 0)).timers 0 =
      some (Hst.start handshake) := rfl
  obtain ⟨n, h, htimers, halive, hclock, hlt⟩ :=
    @Watched.exists_runOut keepalive handshake _ _ _ hstart fun _ => rfl
  rw [← run_arrival] at htimers hclock
  refine ⟨n, fun hearly => ?_⟩
  have hpos := (hearly 0 h htimers).1
  rw [hclock] at hpos
  have hzero : (Runs.run (Watched.step keepalive handshake) .init (arrival false 0)).clock 0 =
      .zero := rfl
  simp only [hzero, Clock.zero, Option.map_none, Nat.zero_add, forall_const] at hpos
  have hstartAlive : (Hst.start handshake).alive = handshake := rfl
  omega

/-- So does one that starts well below the idle timeout after the handshake. -/
theorem early_idle {h : Hst}
    (hh : ((Hst.start handshake).touch keepalive).startIdle keepalive = h)
    (hl : 0 < h.alive → h.linked = true)
    (hless : max h.alive 0 + timerPeriod ≤ 1000 * o.idleTimeoutSec.toNat) :
    ∃ n, ¬ NotEarly o (Runs.run (Watched.step keepalive handshake) .init (arrival true n)) := by
  have hstart : (Runs.run (Watched.step keepalive handshake) .init (arrival true 0)).timers 0 =
      some h := by
    have hframe : (Hst.start handshake).frame keepalive (bareFrame MsgType.serviceInfo 0) = h := by
      rw [Hst.frame, if_pos (by decide +kernel), hh]
    exact congrArg some hframe
  obtain ⟨n, h', htimers, halive, hclock, hlt⟩ :=
    @Watched.exists_runOut keepalive handshake _ _ _ hstart hl
  rw [← run_arrival] at htimers hclock
  refine ⟨n, fun hearly => ?_⟩
  have hpos := (hearly 0 h' htimers).2 n
  rw [hclock] at hpos
  have hinfo : (Runs.run (Watched.step keepalive handshake) .init (arrival true 0)).clock 0 =
      ⟨0, some 0, true⟩ := by
    show Clock.packet (bareFrame MsgType.serviceInfo 0) .zero = _
    decide +kernel
  simp only [hinfo, Option.map_some, Nat.zero_add, forall_const] at hpos
  omega

end Kept

/-- An idle timeout that does not fit starts the countdown well below what was asked for, or does
not start it at all. -/
theorem startIdle_of_lt {o : ServerOptions} {h : Hst} (hl : h.linked = true)
    (hbig : intMax < 1000 * o.idleTimeoutSec.toNat) :
    (0 < (h.startIdle o.keepaliveTimeout).alive →
      (h.startIdle o.keepaliveTimeout).linked = true) ∧
      max (h.startIdle o.keepaliveTimeout).alive 0 + timerPeriod ≤
        1000 * o.idleTimeoutSec.toNat := by
  have hperiod : timerPeriod = 50 := rfl
  have hmax : intMax = 2147483647 := rfl
  have hidle : idleMs o.keepaliveTimeout + 0x100000000 ≤ 1000 * o.idleTimeoutSec.toNat := by
    unfold idleMs ServerOptions.keepaliveTimeout toInt
    rw [Int.bmod_mul_bmod, Int.mul_comm]
    exact bmod_of_lt hbig
  generalize o.keepaliveTimeout = k at *
  unfold Hst.startIdle
  split_ifs
  · exact ⟨fun _ => hl, by simp only; omega⟩
  · exact ⟨fun h0 => absurd h0 (Int.lt_irrefl 0), by simp only; omega⟩

/-- **Timeouts are kept exactly if they fit `int`,** in milliseconds. -/
theorem kept_iff (o : ServerOptions) (hconn : 0 < o.connTimeoutMs) (hidle : 0 < o.idleTimeoutSec) :
    o.Kept ↔ o.connTimeoutMs.toNat ≤ intMax ∧ 1000 * o.idleTimeoutSec.toNat ≤ intMax := by
  have hperiod : timerPeriod = 50 := rfl
  have hmax : intMax = 2147483647 := rfl
  have hshake : o.handshakeTimeout = toInt o.connTimeoutMs := if_pos hconn
  have hsecs : 0 < o.idleTimeoutSec.toNat := UInt64.lt_iff_toNat_lt.1 hidle
  constructor
  · intro h
    by_contra hbig
    rw [not_and_or, Int.not_le, Int.not_le] at hbig
    rcases hbig with hbig | hbig
    · have hless := toInt_of_lt hbig
      rw [← hshake] at hless
      obtain ⟨n, hn⟩ := @early_conn o o.keepaliveTimeout o.handshakeTimeout (by omega)
      exact hn (h _ (revived_arrival false n) _ (List.prefix_refl _))
    · obtain ⟨hlinked, hless⟩ := startIdle_of_lt
        (h := (Hst.start o.handshakeTimeout).touch o.keepaliveTimeout)
        (by unfold Hst.touch; split_ifs <;> rfl) hbig
      generalize hh : ((Hst.start o.handshakeTimeout).touch o.keepaliveTimeout).startIdle
        o.keepaliveTimeout = h' at hlinked hless
      obtain ⟨n, hn⟩ := early_idle hh hlinked hless
      exact hn (h _ (revived_arrival true n) _ (List.prefix_refl _))
  · rintro ⟨hconnFits, hidleFits⟩ es hrev
    have hsecs' : o.keepaliveTimeout = o.idleTimeoutSec.toNat := toInt_of_le (by omega)
    exact always_notEarly (hshake.trans (toInt_of_le hconnFits)) hsecs' (by omega)
      (by rwa [hsecs']) hrev

/-- Options with these timeouts, and defaults otherwise. -/
def withTimeouts (connTimeoutMs idleTimeoutSec : UInt64) : ServerOptions :=
  ⟨100, connTimeoutMs, idleTimeoutSec, 0⟩

/-- Five seconds and a minute are kept. -/
theorem usual_kept : (withTimeouts 5000 60).Kept :=
  (kept_iff (withTimeouts 5000 60) (by decide) (by decide)).2 ⟨by decide, by decide⟩

/-- A connection timeout of fifty days and 100 ms becomes one of 100 ms, an idle timeout of
twenty-five days a negative one, and a packet that comes after its client's timer ran out does not
start it again. -/
theorem timeouts_early :
    ¬ Runs.Always (withTimeouts 4294967396 60).watch (NotEarly (withTimeouts 4294967396 60)) .init
        (arrival false 2) ∧
      ¬ Runs.Always (withTimeouts 5000 2147484).watch (NotEarly (withTimeouts 5000 2147484)) .init
        (arrival true 0) ∧
      ¬ Runs.Always (withTimeouts 5000 1).watch (NotEarly (withTimeouts 5000 1)) .init
        (lastMinute MsgType.pingEcho) := by
  refine ⟨fun h => ?_, fun h => ?_, fun h => ?_⟩
  · exact absurd ((h _ (List.prefix_refl _) 0 ⟨0, true⟩ (by decide +kernel)).1 (by decide +kernel)
      (by decide +kernel)) (by decide)
  · exact absurd ((h _ (List.prefix_refl _) 0 ⟨-2147483296, true⟩ (by decide +kernel)).2 0
      (by decide +kernel) (by decide +kernel) (by decide +kernel)) (by decide)
  · exact absurd ((h _ (List.prefix_refl _) 0 ⟨0, true⟩ (by decide +kernel)).2 0
      (by decide +kernel) (by decide +kernel) (by decide +kernel)) (by decide)

end Ssn
