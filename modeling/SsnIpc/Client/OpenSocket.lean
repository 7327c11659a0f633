import SsnIpc.Client.Connections

/-!
# A connected client and its socket

A client that reports itself connected should have an open socket; otherwise `ssn_client_poll`
has nothing to watch, and the loss of the connection is never noticed. `ssn_client_sendmsg` closes
the descriptor when a send fails and leaves the flag `connected` as it is.

**Theorem (`socketOpen_iff_allSent`).** A run of a client keeps the socket of the connected client
open exactly when every message it sends gets through.
-/

namespace Ssn

open ByteMem

variable {κ : Type*} {net : Nat → Nat → SendStep} {w w' : ClientWorld κ}

namespace ClientWorld

/-- `ssn_client_is_connect`, for a client that is not closed. -/
def isConnect (w : ClientWorld κ) : Bool := w.client.connected

/-- If the client reports itself connected, it has a transport with an open descriptor. -/
def SocketOpen (w : ClientWorld κ) : Prop :=
  w.isConnect = true → ∃ t, w.client.transport = some t ∧ 0 ≤ t.getFd

/-- The message can be sent, and the socket takes its packet within the waiting budget. -/
structure GetsThrough (net : Nat → Nat → SendStep) (w : ClientWorld κ) (msg : Message) : Prop where
  sendable : Sendable msg.url msg.data
  delivers : Delivers (headerSize + optLen msg.url + optLen msg.data) w.wire.budget
    (net w.log.length)

/-- Every message that the step sends gets through. -/
def AllSent (net : Nat → Nat → SendStep) (w : ClientWorld κ) (op : ClientOp κ) : Prop :=
  ∀ p ∈ w.sending op, p.1.GetsThrough net p.2

theorem send_ret_iff {msg : Message} :
    (w.send net msg).2 = true ↔ ¬ w.wire.sockFd < 0 ∧ w.GetsThrough net msg :=
  (sendMessage_ret_iff w.wire _ (headerReady_createHeader ..)).trans
    (and_congr_right' ⟨fun h => ⟨h.1, h.2⟩, fun h => ⟨h.1, h.2⟩⟩)

/-! ## Steps that keep the socket -/

theorem SocketOpen.of_link (hlink : w'.client.link = w.client.link) (h : w.SocketOpen) :
    w'.SocketOpen := by
  intro hc
  obtain ⟨t, ht, hfd⟩ := h ((congrArg Link.connected hlink).symm.trans hc)
  exact ⟨t, (congrArg Link.transport hlink).trans ht, hfd⟩

theorem closed_socketOpen : Closed (SocketOpen (κ := κ)) :=
  .of_link SocketOpen.of_link (fun _ h => h) (fun _ _ hc => nomatch hc)
    fun hfd _ _ => ⟨_, rfl, hfd⟩

theorem SocketOpen.send {msg : Message} (h : w.SocketOpen) (hok : w.GetsThrough net msg) :
    (w.send net msg).1.SocketOpen := by
  intro hc
  obtain ⟨t, ht, hfd⟩ := h hc
  have hwire : ¬ w.wire.sockFd < 0 := by
    rw [wire, ht]
    exact Int.not_lt.2 hfd
  have hret : ((w.createHeader msg).sendOut net msg).2.ret = true := send_ret_iff.2 ⟨hwire, hok⟩
  refine ⟨t, ?_, hfd⟩
  rw [← ht, ClientWorld.send, sendmsg]
  simp only [hret, if_true]
  rfl

theorem socketOpen_step [DecidableEq κ] (net : Nat → Nat → SendStep) (w : ClientWorld κ)
    (op : ClientOp κ) (h : w.SocketOpen) (hok : w.AllSent net op) :
    (w.step net op).SocketOpen :=
  closed_socketOpen.step op (fun p hp hw => hw.send (hok p hp)) (fun _ _ _ hw => hw) h h

/-! ## A send that fails -/

theorem requestSending_connected {ftype : FType} {msgType : UInt8} {url data : Option Ref}
    {callback : Option κ} {timeoutMs : Nat} {p : ClientWorld κ × Message}
    (hp : w.requestSending ftype msgType url data callback timeoutMs = some p)
    (hc : w.client.connected = true) : p.1.client.connected = true :=
  (congrArg Link.connected (quiet_requestSending hp).link).trans hc

theorem requestWith_failed {ftype : FType} {msgType : UInt8} {url data : Option Ref}
    {callback : Option κ} {timeoutMs : Nat} {p : ClientWorld κ × Message}
    (hp : w.requestSending ftype msgType url data callback timeoutMs = some p)
    (hfail : (p.1.send net p.2).2 = false) :
    ∃ w', Quiet (p.1.send net p.2).1 w' ∧
      w.requestWith net ftype msgType url data callback timeoutMs = (w', none) := by
  obtain ⟨w', hq, heq⟩ := requestWith_some net hp
  exact ⟨w', hq, by rw [heq, hfail]; rfl⟩

theorem step_failed [DecidableEq κ] {op : ClientOp κ} {p : ClientWorld κ × Message}
    (hp : w.sending op = some p) (hfail : (p.1.send net p.2).2 = false) :
    p.1.client.connected = true ∧ Quiet (p.1.send net p.2).1 (w.step net op) := by
  -- Requests free their slot after a failed send; no other step does anything after it.
  cases op with
  | call url data callback timeoutMs =>
    simp only [sending] at hp
    split_ifs at hp with hc
    obtain ⟨w', hq, heq⟩ := requestWith_failed hp hfail
    refine ⟨requestSending_connected hp hc.1, ?_⟩
    simp only [step, callEx, if_pos hc, heq]
    exact hq
  | subscribe url callback timeoutMs =>
    simp only [sending] at hp
    split_ifs at hp with hc
    obtain ⟨w', hq, heq⟩ := requestWith_failed hp hfail
    refine ⟨requestSending_connected hp hc.2, ?_⟩
    rw [step, subscribe, if_pos hc, requestEx, if_pos (by exact hc.2)]
    exact (congrArg Prod.fst heq).substr hq
  | unsubscribe url timeoutMs =>
    simp only [sending] at hp
    split_ifs at hp with hc
    obtain ⟨w', hq, heq⟩ := requestWith_failed hp hfail
    refine ⟨requestSending_connected hp hc.1, ?_⟩
    rw [step, unsubscribe, if_pos hc, requestEx, if_pos (by exact hc.1)]
    exact (congrArg Prod.fst heq).substr hq
  | message url data =>
    simp only [sending] at hp
    split_ifs at hp with hc
    obtain rfl := Option.some.inj hp
    refine ⟨hc.1, ?_⟩
    simp only [step, message, if_pos hc]
    exact .refl _
  | ping k timeoutMs polls =>
    simp only [sending] at hp
    split_ifs at hp with hc
    obtain ⟨w', hq, heq⟩ := requestWith_failed hp hfail
    refine ⟨requestSending_connected hp hc, ?_⟩
    simp only [step, ping, requestEx, hc, if_true, heq]
    exact hq
  | connect timeoutMs run => cases hp
  | disconnect => cases hp
  | sendTimeout timeoutMs outcome => cases hp
  | poll outcome => cases hp
  | timerSweep => cases hp

theorem not_socketOpen_send {msg : Message} (hc : w.client.connected = true)
    (hfail : (w.send net msg).2 = false) : ¬ (w.send net msg).1.SocketOpen := by
  intro h
  obtain ⟨t, ht, hfd⟩ := h hc
  have hret : ((w.createHeader msg).sendOut net msg).2.ret = false := hfail
  have htr : (w.send net msg).1.client.transport =
      w.client.transport.map Transport.disconnect := by
    rw [ClientWorld.send, sendmsg]
    simp only [hret]
    rfl
  rw [htr] at ht
  obtain ⟨t', -, rfl⟩ := Option.map_eq_some_iff.1 ht
  exact absurd hfd (by simp [Transport.disconnect, Transport.getFd])

theorem not_socketOpen_step [DecidableEq κ] (net : Nat → Nat → SendStep) (w : ClientWorld κ)
    (op : ClientOp κ) (hbad : ¬ w.AllSent net op) : ¬ (w.step net op).SocketOpen := by
  simp only [AllSent, not_forall] at hbad
  obtain ⟨p, hp, hlost⟩ := hbad
  have hfail : (p.1.send net p.2).2 = false :=
    Bool.eq_false_iff.2 fun h => hlost (send_ret_iff.1 h).2
  obtain ⟨hc, hq⟩ := step_failed hp hfail
  exact fun h => not_socketOpen_send hc hfail (h.of_link hq.link.symm)

end ClientWorld

/-! ## Runs -/

/-- **The socket of a connected client stays open exactly as long as its messages get through.** In
every run of a client, whatever the network does, each state with a connected client has an open
descriptor if and only if the message of each call, subscription, message or ping of the run can be
sent and is taken by the socket before the waiting budget is spent. -/
theorem socketOpen_iff_allSent [DecidableEq κ] (net : Nat → Nat → SendStep)
    (ops : List (ClientOp κ)) :
    Runs.Always (ClientWorld.step net) ClientWorld.SocketOpen ⟨.create, []⟩ ops ↔
      Runs.EachStep (ClientWorld.step net) (ClientWorld.AllSent net) ⟨.create, []⟩ ops :=
  Runs.always_iff_eachStep (G := fun _ _ => True)
    (fun w op h _ hok => ClientWorld.socketOpen_step net w op h hok) (fun _ h => h)
    (fun w op _ _ hbad => ClientWorld.not_socketOpen_step net w op hbad) (fun hc => nomatch hc)
    Runs.eachStep_true

/-- A call on a socket that fails, and then the end of the connection. -/
def callThenEof : List (ClientOp Nat) :=
  [answered, .call [slash, 0x61] none none 0, .poll (.ready (some .eof))]

/-- The client is still connected afterwards, and its descriptor is closed. -/
theorem callThenEof_not_socketOpen :
    ¬ Runs.Always (ClientWorld.step fun _ _ => .failed) ClientWorld.SocketOpen ⟨.create, []⟩
      callThenEof := by
  intro h
  obtain ⟨t, ht, hfd⟩ := h _ (List.prefix_refl _) (by decide +kernel)
  have hclosed : (Runs.run (ClientWorld.step fun _ _ => .failed) ⟨.create, []⟩
      callThenEof).client.transport = some ⟨-1, 100⟩ := by decide +kernel
  obtain rfl := Option.some.inj (hclosed.symm.trans ht)
  exact absurd hfd (by decide)

end Ssn
