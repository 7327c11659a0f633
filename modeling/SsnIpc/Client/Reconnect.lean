import SsnIpc.Client.Steps
import SsnIpc.Lib.Runs

/-!
# A poll and a connection attempt at the same time

One thread polls the client in a loop, another one connects it, disconnects it and closes it. The
lock of the client is held only for the moments in which the transport is read or replaced, so
the steps of the two threads interleave (`Reconnect.step`). When a poll notices the loss of a
connection it lets go of the lock, calls back for all pending requests, and then takes the lock
again to destroy whatever transport the client has by then.

**Transports and reasons.** Transports are numbered. A note is made of every loss that is
observed, and with its reason whenever a transport is destroyed or `connected` is cleared on it.

**Theorem (`ownCause_of_noOverlap`).** A loss takes down only the connection it was observed on, in
every run in which no connection is made between the time a loss is noticed and the time the poll
is done with it, and in which the poll does not trip over the bytes of a connection that has been
replaced.

A poll that is not interrupted, and likewise an attempt, a disconnect, does what the sequential
model of the client says (`poll_agrees`, `connect_agrees`, `disconnect_agrees`).
-/

namespace Ssn

/-! ## The two threads -/

/-- What `recv` brings: bytes, the end of the stream or an error. -/
inductive Received
  | data
  | eof
  | error
  deriving DecidableEq

/-- A transport; its descriptor is closed when it is disconnected. -/
structure Handle where
  id : Nat
  isOpen : Bool
  deriving DecidableEq

/-- Why a connection is taken down. -/
inductive Cause
  /-- An event was observed on the transport `t`. -/
  | lost (t : Nat)
  | disconnect
  | connect
  | close
  deriving DecidableEq

inductive Note
  | observed (t : Nat)
  /-- `connected` went from true to false while `t` was the client's transport. -/
  | cleared (t : Nat) (cause : Cause)
  | destroyed (t : Nat) (cause : Cause)
  deriving DecidableEq

inductive PollPc
  /-- Outside `ssn_client_poll`. -/
  | outside
  /-- In `pselect`. -/
  | waiting
  /-- In `ssn_client_process_events`, which found the client connected. -/
  | entered
  /-- Something was received on the transport `t`. -/
  | received (t : Nat) (r : Received)
  /-- The connection of `t` is lost; `connected` is to be cleared. -/
  | lost (t : Nat)
  /-- In `ssn_client_timeout_all`. -/
  | timeoutAll (t : Nat)
  /-- `ssn_client_process_events` returned false; `connected` is to be cleared. -/
  | failed (cause : Cause)
  /-- The transport is to be destroyed. -/
  | teardown (cause : Cause)
  deriving DecidableEq

inductive ConnectPc
  | idle
  /-- In `ssn_client_connect`; `connected` is to be cleared. -/
  | called
  /-- The old transport is to be destroyed. -/
  | cleared
  /-- Connecting, with a transport that is not yet the client's. -/
  | handshake
  /-- The new transport is the client's; `ssn_client_connect` is about to return true. -/
  | published
  /-- In `ssn_client_disconnect`. -/
  | disconnecting
  deriving DecidableEq

/-- The client as far as the two threads share it, and where they are. -/
structure Reconnect where
  valid : Bool
  connected : Bool
  transport : Option Handle
  next : Nat
  pollPc : PollPc
  connectPc : ConnectPc
  log : List Note
  deriving DecidableEq

/-- The steps of the two threads. -/
inductive ReconnectEvent
  /-- The polling thread goes on. `ready` is what it receives if it comes to that, and `fed` what
  the stream parser makes of it. -/
  | poll (ready : Option Received) (fed : Bool)
  /-- `pselect` reports nothing. -/
  | pollTimeout
  /-- The other thread calls `ssn_client_connect`. -/
  | connect
  /-- It goes on; `ok` tells whether the handshake succeeds, if that is where it is. -/
  | proceed (ok : Bool)
  /-- It calls `ssn_client_disconnect`. -/
  | disconnect
  /-- It calls `ssn_client_close`. -/
  | close
  /-- The last reference to a closed client goes. -/
  | release
  deriving DecidableEq

namespace Reconnect

/-- A client that was just created. -/
def start : Reconnect := ⟨true, false, none, 0, .outside, .idle, []⟩

/-- Clear `connected`. -/
def clear (s : Reconnect) (cause : Cause) : Reconnect :=
  { s with
    connected := false
    log := s.log ++ (if s.connected then s.transport.toList.map (.cleared ·.id cause) else []) }

def destroy (s : Reconnect) (cause : Cause) : Reconnect :=
  { s with
    transport := none
    log := s.log ++ s.transport.toList.map (.destroyed ·.id cause) }

/-- Make a new transport the client's. -/
def publish (s : Reconnect) : Reconnect :=
  { s.destroy .connect with
    transport := some ⟨s.next, true⟩
    next := s.next + 1
    connected := true }

/-- The locked part of `ssn_client_process_events`. -/
def receive (s : Reconnect) (ready : Option Received) : Reconnect :=
  match s.transport, ready with
  | some t, some r =>
    if t.isOpen then
      { s with
        pollPc := .received t.id r
        log := s.log ++ (if r = .data then [] else [.observed t.id]) }
    else { s with pollPc := .outside }
  | _, _ => { s with pollPc := .outside }

def pollStep (s : Reconnect) (ready : Option Received) (fed : Bool) : Reconnect :=
  match s.pollPc with
  | .outside => if s.valid then { s with pollPc := .waiting } else s
  | .waiting =>
    if !s.valid then { s with pollPc := .failed .close }
    else if s.connected then { s with pollPc := .entered }
    else { s with pollPc := .outside }
  | .entered => s.receive ready
  | .received t .data =>
    if fed then { s with pollPc := .outside }
    else { s with pollPc := .lost t, log := s.log ++ [.observed t] }
  | .received t .eof => { s with pollPc := .lost t }
  | .received t .error => { s with pollPc := .lost t }
  | .lost t => { s.clear (.lost t) with pollPc := .timeoutAll t }
  | .timeoutAll t => { s with pollPc := .failed (.lost t) }
  | .failed cause => { s.clear cause with pollPc := .teardown cause }
  | .teardown cause => { s.destroy cause with pollPc := .outside }

/-- The next step of the other thread. -/
def connectStep (s : Reconnect) (ok : Bool) : Reconnect :=
  match s.connectPc with
  | .idle => s
  | .called => { s.clear .connect with connectPc := .cleared }
  | .cleared => { s.destroy .connect with connectPc := .handshake }
  | .handshake =>
    if ok then { s.publish with connectPc := .published } else { s with connectPc := .idle }
  | .published => { s with connectPc := .idle }
  | .disconnecting =>
    { s.clear .disconnect with
      transport := s.transport.map fun t => { t with isOpen := false }
      connectPc := .idle }

def step (s : Reconnect) : ReconnectEvent → Reconnect
  | .poll ready fed => s.pollStep ready fed
  | .pollTimeout => if s.pollPc = .waiting then { s with pollPc := .outside } else s
  | .connect => if s.connectPc = .idle ∧ s.valid then { s with connectPc := .called } else s
  | .proceed ok => s.connectStep ok
  | .disconnect =>
    if s.connectPc = .idle ∧ s.valid ∧ s.connected then { s with connectPc := .disconnecting }
    else s
  | .close => if s.connectPc = .idle then { s with valid := false } else s
  | .release =>
    if s.connectPc = .idle ∧ s.pollPc = .outside ∧ !s.valid then (s.clear .close).destroy .close
    else s

/-! ## Reasons -/

/-- A transport that is taken down for a loss is the one on which the loss was observed. -/
def OwnCause (s : Reconnect) : Prop :=
  ∀ t t', Note.cleared t (.lost t') ∈ s.log ∨ Note.destroyed t (.lost t') ∈ s.log →
    t' = t ∧ Note.observed t ∈ s.log

end Reconnect

/-- The transport whose loss the poll has noticed and not dealt with. -/
def PollPc.noticed : PollPc → Option Nat
  | .received t .eof => some t
  | .received t .error => some t
  | .lost t => some t
  | .timeoutAll t => some t
  | .failed (.lost t) => some t
  | .teardown (.lost t) => some t
  | _ => none

/-- The transport whose bytes the poll is passing to the stream parser. -/
def PollPc.feeding : PollPc → Option Nat
  | .received t .data => some t
  | _ => none

namespace Reconnect

/-- No connection is made while the poll deals with a loss, and when the stream parser fails, the
client still has the transport that the bytes came from, if any. -/
def NoOverlap (s : Reconnect) : ReconnectEvent → Prop
  | .proceed true => s.connectPc = .handshake → s.pollPc.noticed = none
  | .poll _ false => ∀ t ∈ s.pollPc.feeding, ∀ x ∈ s.transport, x.id = t
  | _ => True

instance (s : Reconnect) : ∀ e, Decidable (s.NoOverlap e)
  | .proceed true =>
    inferInstanceAs (Decidable (s.connectPc = .handshake → s.pollPc.noticed = none))
  | .poll _ false =>
    inferInstanceAs (Decidable (∀ t ∈ s.pollPc.feeding, ∀ x ∈ s.transport, x.id = t))
  | .proceed false | .poll _ true | .pollTimeout | .connect | .disconnect | .close | .release =>
    inferInstanceAs (Decidable True)

/-- The reason applies to the transport that the client has. -/
def Fits (s : Reconnect) (cause : Cause) : Prop :=
  ∀ t, cause = .lost t → Note.observed t ∈ s.log ∧ ∀ x ∈ s.transport, x.id = t

variable {s s' : Reconnect} {cause : Cause}

theorem OwnCause.append (h : s.OwnCause) {notes : List Note} (hlog : s'.log = s.log ++ notes)
    (hnotes : ∀ t t', Note.cleared t (.lost t') ∈ notes ∨ Note.destroyed t (.lost t') ∈ notes →
      t' = t ∧ Note.observed t ∈ s.log) : s'.OwnCause := by
  intro t t' hmem
  have hgood : t' = t ∧ Note.observed t ∈ s.log := by
    simp only [hlog, List.mem_append] at hmem
    rcases hmem with (hmem | hmem) | (hmem | hmem)
    · exact h t t' (.inl hmem)
    · exact hnotes t t' (.inl hmem)
    · exact h t t' (.inr hmem)
    · exact hnotes t t' (.inr hmem)
  exact ⟨hgood.1, by rw [hlog]; exact List.mem_append_left _ hgood.2⟩

theorem OwnCause.clear (h : s.OwnCause) (cause : Cause) (hf : s.Fits cause) :
    (s.clear cause).OwnCause := by
  refine h.append rfl fun t t' hmem => ?_
  split_ifs at hmem
  · simp only [List.mem_map, Option.mem_toList, reduceCtorEq, and_false, exists_false,
      or_false, Note.cleared.injEq] at hmem
    obtain ⟨x, hx, rfl, rfl⟩ := hmem
    obtain ⟨hobs, hid⟩ := hf t' rfl
    obtain rfl := hid x hx
    exact ⟨rfl, hobs⟩
  · simp at hmem

theorem OwnCause.destroy (h : s.OwnCause) (cause : Cause) (hf : s.Fits cause) :
    (s.destroy cause).OwnCause := by
  refine h.append rfl fun t t' hmem => ?_
  simp only [List.mem_map, Option.mem_toList, reduceCtorEq, and_false, exists_false,
    false_or, Note.destroyed.injEq] at hmem
  obtain ⟨x, hx, rfl, rfl⟩ := hmem
  obtain ⟨hobs, hid⟩ := hf t' rfl
  obtain rfl := hid x hx
  exact ⟨rfl, hobs⟩

/-- A loss that the poll has noticed was observed, and on no other transport than the client's. -/
structure Inv (s : Reconnect) : Prop where
  own : s.OwnCause
  noticed : ∀ t, s.pollPc.noticed = some t → s.Fits (.lost t)

theorem Fits.of_log (h : s.Fits cause) {notes : List Note} (hlog : s'.log = s.log ++ notes)
    (htr : ∀ x' ∈ s'.transport, ∃ x ∈ s.transport, x.id = x'.id) : s'.Fits cause := by
  intro t ht
  obtain ⟨hobs, hid⟩ := h t ht
  refine ⟨by rw [hlog]; exact List.mem_append_left _ hobs, fun x' hx' => ?_⟩
  obtain ⟨x, hx, heq⟩ := htr x' hx'
  rw [← heq]
  exact hid x hx

theorem Fits.clear (h : s.Fits cause) (cause' : Cause) : (s.clear cause').Fits cause :=
  h.of_log rfl fun x hx => ⟨x, hx, rfl⟩

theorem Fits.destroy (h : s.Fits cause) (cause' : Cause) : (s.destroy cause').Fits cause :=
  h.of_log rfl nofun

theorem Inv.fits_failed (h : s.Inv) (hpc : s.pollPc = .failed cause ∨ s.pollPc = .teardown cause) :
    s.Fits cause := by
  rintro t rfl
  refine h.noticed t ?_ t rfl
  rcases hpc with hpc | hpc <;> rw [hpc] <;> rfl

theorem Inv.of_pc (h : s.Inv) {pc : PollPc}
    (hpc : ∀ t, pc.noticed = some t → s.Fits (.lost t)) : Inv { s with pollPc := pc } :=
  ⟨h.own, hpc⟩

theorem Inv.observe (h : s.Inv) {t : Nat} {pc : PollPc} (hid : ∀ x ∈ s.transport, x.id = t)
    (hpc : pc.noticed = some t) :
    Inv { s with pollPc := pc, log := s.log ++ [.observed t] } := by
  refine ⟨h.own.append rfl (by simp), fun t' ht' => ?_⟩
  obtain rfl := Option.some.inj (hpc.symm.trans ht')
  intro t'' ht''
  obtain rfl := Cause.lost.inj ht''
  exact ⟨by simp, hid⟩

theorem Inv.receive (h : s.Inv) (ready : Option Received) : (s.receive ready).Inv := by
  unfold Reconnect.receive
  split
  · rename_i x r hx
    have hid : ∀ y ∈ s.transport, y.id = x.id := by
      intro y hy
      rw [Option.some.inj (hx.symm.trans hy)]
    by_cases hopen : x.isOpen = true
    · rw [if_pos hopen]
      cases r with
      | data => exact ⟨h.own.append rfl (by simp), nofun⟩
      | eof => exact h.observe hid rfl
      | error => exact h.observe hid rfl
    · rw [if_neg hopen]
      exact h.of_pc nofun
  · exact h.of_pc nofun

theorem Inv.pollStep (h : s.Inv) (ready : Option Received) (fed : Bool)
    (hok : s.NoOverlap (.poll ready fed)) : (s.pollStep ready fed).Inv := by
  -- One case for each place of the polling thread. A loss that it has noticed stays its reason.
  unfold Reconnect.pollStep
  split
  · split_ifs
    · exact h.of_pc nofun
    · exact h
  · split_ifs
    · exact h.of_pc nofun
    · exact h.of_pc nofun
    · exact h.of_pc nofun
  · exact h.receive ready
  · rename_i t hpc
    cases fed with
    | true => exact h.of_pc nofun
    | false => exact h.observe (hok t (by rw [hpc]; rfl)) rfl
  · rename_i t hpc
    exact h.of_pc fun t' ht' => h.noticed t' (by rw [hpc]; exact ht')
  · rename_i t hpc
    exact h.of_pc fun t' ht' => h.noticed t' (by rw [hpc]; exact ht')
  · rename_i t hpc
    have hfits : s.Fits (.lost t) := h.noticed t (by rw [hpc]; rfl)
    refine ⟨h.own.clear _ hfits, fun t' ht' => ?_⟩
    obtain rfl := Option.some.inj ht'
    exact hfits.clear _
  · rename_i t hpc
    exact h.of_pc fun t' ht' => h.noticed t' (by rw [hpc]; exact ht')
  · rename_i cause hpc
    have hfits := h.fits_failed (.inl hpc)
    refine ⟨h.own.clear _ hfits, fun t ht => ?_⟩
    exact Fits.clear (h.noticed t (by rw [hpc]; cases cause <;> exact ht)) _
  · rename_i cause hpc
    exact ⟨h.own.destroy cause (h.fits_failed (.inr hpc)), nofun⟩

theorem Inv.connectStep (h : s.Inv) (ok : Bool) (hok : s.NoOverlap (.proceed ok)) :
    (s.connectStep ok).Inv := by
  unfold Reconnect.connectStep
  split
  · exact h
  · exact ⟨h.own.clear .connect nofun, fun t ht => (h.noticed t ht).clear _⟩
  · exact ⟨h.own.destroy .connect nofun, fun t ht => (h.noticed t ht).destroy _⟩
  · rename_i hpc
    cases ok with
    | true =>
      refine ⟨h.own.destroy .connect nofun, fun t ht => ?_⟩
      cases (hok hpc).symm.trans ht
    | false => exact ⟨h.own, h.noticed⟩
  · exact ⟨h.own, h.noticed⟩
  · refine ⟨h.own.clear .disconnect nofun, fun t ht => ?_⟩
    refine (h.noticed t ht).of_log rfl fun x' hx' => ?_
    obtain ⟨x, hx, rfl⟩ := Option.map_eq_some_iff.1 hx'
    exact ⟨x, hx, rfl⟩

theorem inv_step (s : Reconnect) (e : ReconnectEvent) (h : s.Inv) (hok : s.NoOverlap e) :
    (s.step e).Inv := by
  cases e with
  | poll ready fed => exact h.pollStep ready fed hok
  | pollTimeout =>
    simp only [step]
    split_ifs
    · exact h.of_pc nofun
    · exact h
  | connect =>
    simp only [step]
    split_ifs
    · exact ⟨h.own, h.noticed⟩
    · exact h
  | proceed ok => exact h.connectStep ok hok
  | disconnect =>
    simp only [step]
    split_ifs
    · exact ⟨h.own, h.noticed⟩
    · exact h
  | close =>
    simp only [step]
    split_ifs
    · exact ⟨h.own, h.noticed⟩
    · exact h
  | release =>
    simp only [step]
    split_ifs
    · exact ⟨(h.own.clear .close nofun).destroy .close nofun,
        fun t ht => ((h.noticed t ht).clear _).destroy _⟩
    · exact h

theorem inv_start : start.Inv := by
  refine ⟨by simp [OwnCause, start], fun t ht => ?_⟩
  cases ht

end Reconnect

/-! ## Uninterrupted calls -/

section Agrees

open ByteMem Reconnect

variable {κ : Type*} {w : ClientWorld κ} {s : Reconnect}

/-- The state of the threads agrees with that of the sequential client. -/
structure Agrees (s : Reconnect) (w : ClientWorld κ) : Prop where
  valid : s.valid = true
  connected : s.connected = w.client.connected
  transport : s.transport.map Handle.isOpen =
    w.client.transport.map fun t => decide (0 ≤ t.getFd)

/-- What `recv` brings, for the threads: `EAGAIN` is nothing, and no bytes are the end. -/
def RecvResult.received : RecvResult → Option Received
  | .data buf => if buf = [] then some .eof else some .data
  | .eof => some .eof
  | .error => some .error
  | .again => none

/-- What the stream parser makes of the bytes received, if there are any. -/
def ClientWorld.fed (w : ClientWorld κ) : Option RecvResult → Bool
  | some (.data buf) => (w.feedInput (buf.take maxPacketSize)).2
  | _ => true

/-- What was received ends the connection. -/
def EndsIt : Option Received → Bool → Bool
  | some .data, fed => !fed
  | some .eof, _ => true
  | some .error, _ => true
  | none, _ => false

/-- A poll that is not interrupted takes the connection down if what it receives ends it, and
leaves it alone otherwise. -/
theorem Reconnect.run_poll (hvalid : s.valid = true) (hpc : s.pollPc = .outside)
    (ready : Option Received) (fed : Bool) :
    let lost := s.connected && s.transport.any Handle.isOpen && EndsIt ready fed
    ∃ n log, Runs.run step s (List.replicate n (.poll ready fed)) =
      { s with
        connected := s.connected && !lost
        transport := if lost then none else s.transport
        log := log } := by
  obtain ⟨valid, connected, transport, next, pollPc, connectPc, log⟩ := s
  dsimp only at hvalid hpc ⊢
  subst hvalid hpc
  cases connected with
  | false => exact ⟨2, log, rfl⟩
  | true =>
    rcases transport with _ | ⟨id, _ | _⟩
    · exact ⟨3, log, rfl⟩
    · rcases ready with _ | _ <;> exact ⟨3, log, rfl⟩
    · rcases ready with _ | _ | _ | _
      · exact ⟨3, log, rfl⟩
      · cases fed with
        | true => exact ⟨4, _, rfl⟩
        | false => exact ⟨8, _, rfl⟩
      · exact ⟨8, _, rfl⟩
      · exact ⟨8, _, rfl⟩

namespace ClientWorld

def SameConnection (w w' : ClientWorld κ) : Prop :=
  w'.client.connected = w.client.connected ∧ w'.client.transport = w.client.transport

theorem SameConnection.of_link {w' : ClientWorld κ} (h : w'.client.link = w.client.link) :
    SameConnection w w' :=
  ⟨congrArg Link.connected h, congrArg Link.transport h⟩

theorem SameConnection.trans {w' w'' : ClientWorld κ} (h : SameConnection w w')
    (h' : SameConnection w' w'') : SameConnection w w'' :=
  ⟨h'.1.trans h.1, h'.2.trans h.2⟩

theorem sameConnection_timeoutAll : SameConnection w w.timeoutAll := .of_link quiet_timeoutAll.link

theorem sameConnection_feedInput (buf : Bytes) : SameConnection w (w.feedInput buf).1 := by
  have hfed : SameConnection w
      (streamFeed clientInput w.client.recv buf (w.emit (.received buf))).2.1 := by
    refine streamFeed_keeps (P := SameConnection w) (fun w' f h => ?_) _ _ _ ⟨rfl, rfl⟩
    exact h.trans (.of_link (quiet_input f).link)
  exact hfed

/-- The poll meets something that ends the connection. -/
def losesIt (w : ClientWorld κ) (sock : Option RecvResult) : Bool :=
  w.client.connected && w.isOpen && EndsIt (sock.bind RecvResult.received) (w.fed sock)

theorem processEvents_connection (sock : Option RecvResult) :
    (w.processEvents sock).2 = !w.losesIt sock ∧
      ((w.processEvents sock).2 = true → SameConnection w (w.processEvents sock).1) := by
  have hevent {w' : ClientWorld κ} (h : SameConnection w w') :
      SameConnection w w'.handleEvent := h.trans (.of_link quiet_handleEvent.link)
  have hsame : SameConnection w w.handleEvent := hevent ⟨rfl, rfl⟩
  rw [losesIt, processEvents]
  cases hc : w.client.connected with
  | false => exact ⟨rfl, fun _ => hsame⟩
  | true =>
    cases ho : w.isOpen with
    | false => exact ⟨rfl, fun _ => hsame⟩
    | true =>
      rcases sock with _ | buf | _ | _ | _
      · exact ⟨rfl, fun _ => hsame⟩
      · by_cases hbuf : buf = []
        · subst hbuf
          exact ⟨rfl, nofun⟩
        · have hfed := sameConnection_feedInput (w := w) (buf.take maxPacketSize)
          simp only [if_true, if_neg hbuf, Option.bind_some, RecvResult.received, EndsIt, fed]
          cases hok : (w.feedInput (buf.take maxPacketSize)).2 with
          | false => exact ⟨rfl, nofun⟩
          | true => exact ⟨rfl, fun _ => hevent hfed⟩
      · exact ⟨rfl, nofun⟩
      · exact ⟨rfl, fun _ => hsame⟩
      · exact ⟨rfl, nofun⟩

theorem poll_connection (sock : Option RecvResult) :
    (w.poll (.ready sock)).client.connected = (w.client.connected && !w.losesIt sock) ∧
      (w.poll (.ready sock)).client.transport =
        if w.losesIt sock then none else w.client.transport := by
  obtain ⟨hret, hsame⟩ := processEvents_connection (w := w) sock
  rw [poll]
  simp only
  cases hlost : w.losesIt sock with
  | true =>
    rw [hlost] at hret
    simp [hret, setClient]
  | false =>
    rw [hlost] at hret
    simp only [hret, Bool.not_false, if_true, Bool.and_true, Bool.false_eq_true, if_false]
    exact hsame hret

def Down (w : ClientWorld κ) : Prop := w.client.connected = false ∧ w.client.transport = none

theorem Down.of_link {w' : ClientWorld κ} (h : w.Down) (hl : w'.client.link = w.client.link) :
    w'.Down :=
  ⟨(congrArg Link.connected hl).trans h.1, (congrArg Link.transport hl).trans h.2⟩

theorem Down.feedConn (h : w.Down) (buf : Bytes) : (w.feedConn buf).1.1.Down := by
  have hfed : (streamFeed clientConnInput w.client.recv buf
      (w.emit (.received buf), 0)).2.1.1.Down := by
    refine streamFeed_keeps (P := fun arg : ClientWorld κ × Nat => arg.1.Down)
      (fun arg f h => ?_) _ _ _ h
    exact h.of_link (quiet_connInput arg.2 f).link
  exact hfed

theorem Down.opened (h : w.Down) (msg : Message) : ((w.emit .opened).createHeader msg).Down := h

theorem connect_cases {P : ClientWorld κ × Bool → Prop}
    (hup : ∀ (w' : ClientWorld κ) (t : Transport), 0 ≤ t.getFd →
      P (w'.setClient { w'.client with transport := some t, connected := true }, true))
    (hdown : ∀ w' : ClientWorld κ, w'.Down → P (w', false)) (timeoutMs : Option Nat)
    (run : ConnectRun) : P (w.connect timeoutMs run) := by
  have hall := quiet_timeoutAll
    (w := w.setClient { w.client with connected := false, transport := none })
  have hstart : (w.setClient { w.client with
      connected := false, transport := none }).timeoutAll.Down := Down.of_link ⟨rfl, rfl⟩ hall.link
  cases hfd : run.fd with
  | none => simpa only [connect, dial, hfd] using hdown _ hstart
  | some fd =>
    have hready := hstart.opened ⟨MsgType.serviceInfo, 0, 0, none, none⟩
    have hshaken := handshake_keeps (P := Down) (fun _ h => h.feedConn _)
      (maxRetries (timeoutMs.getD 3000)) run.recvs hready
    simp only [connect, dial, hfd]
    split_ifs
    · exact hup _ _ (Int.natCast_nonneg fd)
    · exact hdown _ hshaken
    · exact hdown _ hready

end ClientWorld

theorem Agrees.isOpen (h : Agrees s w) : s.transport.any Handle.isOpen = w.isOpen := by
  have htr := h.transport
  rw [ClientWorld.isOpen]
  cases hs : s.transport <;> cases hw : w.client.transport <;> rw [hs, hw] at htr
  · rfl
  · cases htr
  · cases htr
  · exact Option.some.inj htr

/-- An uninterrupted poll does what the sequential one does. -/
theorem poll_agrees (h : Agrees s w) (hpc : s.pollPc = .outside) (sock : Option RecvResult) :
    ∃ n, Agrees
      (Runs.run step s (List.replicate n (.poll (sock.bind RecvResult.received) (w.fed sock))))
      (w.poll (.ready sock)) := by
  obtain ⟨n, log, hrun⟩ :=
    Reconnect.run_poll h.valid hpc (sock.bind RecvResult.received) (w.fed sock)
  obtain ⟨hc, ht⟩ := ClientWorld.poll_connection (w := w) sock
  rw [h.isOpen, h.connected, show (_ && _ && _) = w.losesIt sock from rfl] at hrun
  refine ⟨n, ?_⟩
  rw [hrun]
  refine ⟨h.valid, hc.symm, ?_⟩
  rw [ht]
  cases w.losesIt sock
  · exact h.transport
  · rfl

theorem connect_agrees (h : Agrees s w) (hpc : s.connectPc = .idle) (timeoutMs : Option Nat)
    (run : ConnectRun) :
    Agrees (Runs.run step s
      (.connect :: List.replicate 4 (.proceed (w.connect timeoutMs run).2)))
      (w.connect timeoutMs run).1 := by
  obtain ⟨valid, connected, transport, next, pollPc, connectPc, log⟩ := s
  obtain rfl : valid = true := h.valid
  obtain rfl : connectPc = .idle := hpc
  apply ClientWorld.connect_cases (P := fun out : ClientWorld κ × Bool => Agrees
    (Runs.run step _ (.connect :: List.replicate 4 (.proceed out.2))) out.1)
  · intro w' t ht
    exact ⟨rfl, rfl, congrArg some (decide_eq_true ht).symm⟩
  · intro w' hdown
    exact ⟨rfl, hdown.1.symm, by rw [hdown.2]; rfl⟩

theorem disconnect_agrees (h : Agrees s w) (hpc : s.connectPc = .idle) :
    Agrees (Runs.run step s [.disconnect, .proceed true]) w.disconnect := by
  obtain ⟨valid, connected, transport, next, pollPc, connectPc, log⟩ := s
  obtain ⟨hvalid, hc, htr⟩ := h
  obtain rfl : valid = true := hvalid
  obtain rfl : connectPc = .idle := hpc
  obtain rfl : connected = w.client.connected := hc
  cases hc : w.client.connected with
  | false =>
    rw [ClientWorld.disconnect, if_neg (by rw [hc]; decide)]
    exact ⟨rfl, hc.symm, htr⟩
  | true =>
    obtain ⟨hclear, hclose⟩ := ClientWorld.sameConnection_timeoutAll (w := w.setClient
      { w.client with
        connected := false
        transport := w.client.transport.map Transport.disconnect })
    rw [ClientWorld.disconnect, if_pos hc]
    refine ⟨rfl, by rw [hclear]; rfl, ?_⟩
    rw [hclose]
    simp only [ClientWorld.setClient, Option.map_map]
    -- Nobody's descriptor is open after that.
    cases transport <;> cases ht : w.client.transport <;> rw [ht] at htr
    · rfl
    · cases htr
    · cases htr
    · rfl

end Agrees

/-- **A loss takes down its own connection only, unless a new one is made meanwhile.** Take any
interleaving of a thread that polls the client with one that connects, disconnects and closes it.
If no connection is made while the poll deals with a loss it has noticed, and the stream parser
never fails on bytes of a transport that has been replaced, then whenever a transport is destroyed
or `connected` is cleared on it for a loss, the loss was observed on that transport. -/
theorem ownCause_of_noOverlap (es : List ReconnectEvent)
    (hes : Runs.EachStep Reconnect.step Reconnect.NoOverlap .start es) :
    Runs.Always Reconnect.step Reconnect.OwnCause .start es :=
  Runs.always_of_invariant Reconnect.inv_step (fun _ h => h.own) Reconnect.inv_start hes

/-- A connection attempt from call to return. -/
def attempt : List ReconnectEvent := .connect :: List.replicate 4 (.proceed true)

/-- The steps of a poll that meets the end of the stream. -/
def pollEof (n : Nat) : List ReconnectEvent := List.replicate n (.poll (some .eof) true)

/-- Two connections, each lost before the next step of the other thread. -/
theorem attempts_in_turn_ownCause :
    Runs.Always Reconnect.step Reconnect.OwnCause .start
      (attempt ++ pollEof 8 ++ attempt ++ pollEof 8) := by
  refine ownCause_of_noOverlap _ ?_
  simp only [attempt, pollEof, List.replicate, List.cons_append, List.nil_append,
    Runs.eachStep_cons, Runs.eachStep_nil, and_true]
  decide

/-- The poll notices the end of the first connection. Before it goes on, a second connection is
made and `ssn_client_connect` returns. The poll then takes the second connection down. -/
theorem new_connection_torn_down :
    ¬ Runs.Always Reconnect.step Reconnect.OwnCause .start
      (attempt ++ pollEof 3 ++ attempt ++ pollEof 5) := by
  intro h
  have hown := h _ (List.prefix_refl _)
  obtain ⟨heq, -⟩ := hown 1 0 (.inr (by decide))
  cases heq

end Ssn
