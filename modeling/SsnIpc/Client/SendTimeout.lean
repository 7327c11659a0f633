import SsnIpc.Client.Handshake
import SsnIpc.Client.OpenSocket

/-!
# Connected without a handshake

`ssn_client_connect` sends `SERVICE_INFO` on the connection it makes and publishes the connection
when the reply is there. `ssn_client_send_timeout` makes a connection too, in place of a live one,
and publishes it at once. The flag `connected` does not tell the two apart.

A run is followed with two notes on the last connection made: its descriptor, and whether
`SERVICE_INFO` was sent on it (`Greeting`). Whether the reply was received is read off the log.

**Theorem (`handshaken_iff_noSwap`).** A run of a client keeps to handshaken connections exactly
when `ssn_client_send_timeout` never replaces one.
-/

namespace Ssn

open ByteMem

variable {κ : Type*} {net : Nat → Nat → SendStep} {w w' : ClientWorld κ}

/-! ## The reply -/

/-- What an event says about the reply on the last connection made. -/
def ClientEvent.reply (replied : Bool) : ClientEvent κ → Bool
  | .opened => false
  | .connInput f => replied || decide (InfoReply f)
  | _ => replied

theorem ClientEvent.foldl_reply_minor {es : List (ClientEvent κ)} (h : ∀ e ∈ es, e.Minor)
    (replied : Bool) : es.foldl reply replied = replied := by
  refine Runs.run_fixed fun e he => ?_
  have hm := h e he
  cases e <;> first | exact hm.elim | rfl

namespace ClientWorld

/-- The reply to `SERVICE_INFO` was received on the last connection made. -/
def infoReplied (w : ClientWorld κ) : Bool := w.log.foldl ClientEvent.reply false

@[simp] theorem infoReplied_emit (e : ClientEvent κ) :
    (w.emit e).infoReplied = e.reply w.infoReplied := by
  simp [infoReplied, emit]

@[simp] theorem infoReplied_setClient (c : SsnClient κ) :
    (w.setClient c).infoReplied = w.infoReplied := rfl

theorem Quiet.infoReplied (h : Quiet w w') : w'.infoReplied = w.infoReplied := by
  obtain ⟨es, hes, hm⟩ := h.log
  rw [ClientWorld.infoReplied, hes, List.foldl_append]
  exact ClientEvent.foldl_reply_minor hm _

/-- `ssn_client_conn_input` counts the replies. -/
theorem connInput_replied (arg : ClientWorld κ × Nat) (f : Frame)
    (h : 0 < arg.2 → arg.1.infoReplied = true) :
    0 < (connInput arg f).2 → (connInput arg f).1.infoReplied = true := by
  intro hpos
  rw [(quiet_connInput arg.2 f).infoReplied, infoReplied_emit, ClientEvent.reply, Bool.or_eq_true,
    decide_eq_true_eq]
  by_cases hf : InfoReply f
  · exact Or.inr hf
  · left
    apply h
    have hskip : getMsgType f ≠ MsgType.serviceInfo ∨ getStatus f ≠ 0 ∨ f.data = [] := by
      by_contra hcon
      push Not at hcon
      exact hf hcon
    simpa only [connInput, if_pos hskip] using hpos

theorem feedConn_replied (buf : Bytes) (h : 0 < (w.feedConn buf).1.2) :
    (w.feedConn buf).1.1.infoReplied = true :=
  streamFeed_keeps (P := fun arg : ClientWorld κ × Nat => 0 < arg.2 → arg.1.infoReplied = true)
    connInput_replied _ _ _ (fun hpos => absurd hpos (Nat.lt_irrefl 0)) h

theorem handshake_replied (retries : Nat) (recvs : List HandshakeRecv)
    (h : (w.handshake retries recvs).2 = true) :
    (w.handshake retries recvs).1.infoReplied = true := by
  induction retries generalizing w recvs with
  | zero => cases h
  | succ retries ih =>
    cases recvs with
    | nil => cases h
    | cons r recvs =>
      rw [handshake] at h
      rw [handshake]
      cases hr : r.result with
      | data buf =>
        simp only [hr] at h ⊢
        by_cases hbuf : buf = []
        · rw [if_pos hbuf] at h
          cases h
        · have hfed := feedConn_replied (w := w) (buf.take maxPacketSize)
          simp only [if_neg hbuf] at h ⊢
          generalize w.feedConn (buf.take maxPacketSize) = fed at h hfed ⊢
          -- Bytes that the parser rejects do not end the loop with success.
          obtain ⟨⟨w', packetCnt⟩, _ | _⟩ := fed
          · dsimp only at h ⊢
            split_ifs at h ⊢
            exact ih recvs h
          · dsimp only at h hfed ⊢
            split_ifs at h ⊢ with hpos
            · exact hfed hpos
            · exact ih recvs h
      | eof => simp only [hr] at h; cases h
      | again =>
        simp only [hr] at h ⊢
        exact ih recvs h
      | error => simp only [hr] at h; cases h

/-! ## The last connection made -/

theorem connected_greeting : w.greeting.client.connected = false := by
  obtain ⟨v, hq, hv⟩ := greeting_quiet w
  rw [hv]
  exact congrArg Link.connected hq.link

theorem connected_handshake (retries : Nat) (recvs : List HandshakeRecv)
    (h : w.client.connected = false) : (w.handshake retries recvs).1.client.connected = false := by
  refine handshake_keeps (P := fun w => w.client.connected = false) ?_ retries recvs h
  intro w buf _ hw
  exact streamFeed_keeps (P := fun arg : ClientWorld κ × Nat => arg.1.client.connected = false)
    (fun arg f h => (congrArg Link.connected (quiet_connInput arg.2 f).link).trans h) _ _ _ hw

/-- After an attempt to connect the client is connected if it succeeded, and not otherwise. -/
theorem connected_connect (timeoutMs : Option Nat) (run : ConnectRun) :
    (w.connect timeoutMs run).1.client.connected = (w.connect timeoutMs run).2 := by
  cases hfd : run.fd with
  | none =>
    have hq : Quiet (w.setClient { w.client with connected := false, transport := none })
        (w.setClient { w.client with connected := false, transport := none }).timeoutAll :=
      quiet_timeoutAll
    rw [connect, dial]
    simp only [hfd]
    generalize (w.setClient { w.client with connected := false, transport := none }).timeoutAll =
      v at hq ⊢
    exact congrArg Link.connected hq.link
  | some fd =>
    rw [connect_some hfd]
    dsimp only
    split_ifs with hinfo hshake
    · rfl
    · exact connected_handshake _ _ connected_greeting
    · exact connected_greeting

end ClientWorld

/-- A client, the descriptor of the last connection it made, and whether it has sent `SERVICE_INFO`
there. -/
structure Greeting (κ : Type*) where
  world : ClientWorld κ
  fd : Int
  infoSent : Bool

namespace Greeting

variable {s : Greeting κ}

/-- A client that was just created. -/
def init : Greeting κ := ⟨⟨.create, []⟩, -1, false⟩

/-- One step of a client, with what it means for the last connection made. -/
def step [DecidableEq κ] (net : Nat → Nat → SendStep) (s : Greeting κ) (op : ClientOp κ) :
    Greeting κ :=
  let world := s.world.step net op
  match op with
  | .connect _ run =>
    match run.fd with
    | none => { s with world }
    | some fd => ⟨world, fd, s.world.infoSent fd run.net⟩
  | .sendTimeout _ outcome =>
    match s.world.client.connected, s.world.client.transport, outcome with
    | true, some _, some fd => ⟨world, fd, false⟩
    | _, _, _ => { s with world }
  | _ => { s with world }

/-- If the client reports itself connected, its transport is the last connection made (`fd`; it may
have been closed since), `SERVICE_INFO` was sent there (`sent`), and the reply was received. -/
def OnLast (fd : Int) (sent : Bool) (w : ClientWorld κ) : Prop :=
  w.isConnect = true → sent = true ∧ w.infoReplied = true ∧
    ∃ t, w.client.transport = some t ∧ (t.sockFd = fd ∨ t.sockFd = -1)

/-- If the client reports itself connected, its transport is a connection on which it has sent
`SERVICE_INFO` and received the reply. -/
def Handshaken (s : Greeting κ) : Prop := OnLast s.fd s.infoSent s.world

/-- `ssn_client_send_timeout` does not replace a live connection. -/
def NoSwap (s : Greeting κ) : ClientOp κ → Prop
  | .sendTimeout timeoutMs outcome => ¬ s.world.Opens (.sendTimeout timeoutMs outcome)
  | _ => True

/-! ## Steps that make no connection -/

section OnLast

variable {fd : Int} {sent : Bool}

theorem OnLast.of_link (hlink : w'.client.link = w.client.link)
    (hreplied : w'.infoReplied = w.infoReplied) (h : OnLast fd sent w) : OnLast fd sent w' := by
  intro hc
  obtain ⟨hs, hr, t, ht, hfd⟩ := h ((congrArg Link.connected hlink).symm.trans hc)
  exact ⟨hs, hreplied.trans hr, t, (congrArg Link.transport hlink).trans ht, hfd⟩

theorem kept_onLast : ClientWorld.Kept (OnLast (κ := κ) fd sent) where
  quiet hq h := h.of_link hq.link hq.infoReplied
  input {w buf} _ h := by
    have hemit : OnLast fd sent (w.emit (.received buf)) :=
      OnLast.of_link (w := w) rfl (ClientWorld.infoReplied_emit _) h
    refine OnLast.of_link rfl rfl
      (streamFeed_keeps (P := OnLast fd sent) (fun w f hw => ?_) _ _ _ hemit)
    have hq := ClientWorld.quiet_input (w := w) f
    exact OnLast.of_link (w := w) hq.link
      (hq.infoReplied.trans (ClientWorld.infoReplied_emit _)) hw
  down t h := by
    intro hc
    cases hc

theorem OnLast.send (h : OnLast fd sent w) (msg : Message) :
    OnLast fd sent (w.send net msg).1 := by
  intro hc
  obtain ⟨hs, hr, t, ht, hfd⟩ := h hc
  have hreplied : (w.send net msg).1.infoReplied = w.infoReplied := ClientWorld.infoReplied_emit _
  have htr : (w.send net msg).1.client.transport =
      if ((w.createHeader msg).sendOut net msg).2.ret then w.client.transport
      else w.client.transport.map Transport.disconnect := rfl
  refine ⟨hs, hreplied.trans hr, ?_⟩
  rw [htr, ht]
  split_ifs
  · exact ⟨t, rfl, hfd⟩
  · exact ⟨t.disconnect, rfl, Or.inr rfl⟩

theorem OnLast.step [DecidableEq κ] (h : OnLast fd sent w) {op : ClientOp κ}
    (hopen : ¬ w.Opens op) : OnLast fd sent (w.step net op) :=
  kept_onLast.step op (fun p _ hp => hp.send p.2) hopen h h

end OnLast

/-! ## Runs -/

theorem onLast_connect {timeoutMs : Option Nat} {run : ConnectRun} {fd : Nat}
    (hfd : run.fd = some fd) :
    OnLast fd (w.infoSent fd run.net) (w.connect timeoutMs run).1 := by
  have hdown := ClientWorld.connected_greeting (w := w)
  have hstay := ClientWorld.connected_handshake (ClientWorld.maxRetries (timeoutMs.getD 3000))
    run.recvs hdown
  have hshake := ClientWorld.handshake_replied (w := w.greeting)
    (ClientWorld.maxRetries (timeoutMs.getD 3000)) run.recvs
  intro hc
  rw [ClientWorld.connect_some hfd] at hc ⊢
  generalize w.greeting.handshake (ClientWorld.maxRetries (timeoutMs.getD 3000)) run.recvs = out
    at hc hstay hshake ⊢
  dsimp only at hc ⊢
  split_ifs at hc ⊢ with hsent hok
  · exact ⟨hsent, hshake hok, _, rfl, Or.inl rfl⟩
  · exact absurd (hc.symm.trans hstay) (by decide)
  · exact absurd (hc.symm.trans hdown) (by decide)

theorem step_of_not_opens [DecidableEq κ] {op : ClientOp κ} (hopen : ¬ s.world.Opens op) :
    s.step net op = { s with world := s.world.step net op } := by
  cases op with
  | connect timeoutMs run =>
    cases hfd : run.fd with
    | none => simp only [step, hfd]
    | some fd => exact absurd (by rw [ClientWorld.Opens, hfd]; rfl) hopen
  | sendTimeout timeoutMs outcome =>
    simp only [step]
    split
    · rename_i hc ht
      exact absurd ⟨hc, by rw [ht]; rfl, rfl⟩ hopen
    · rfl
  | _ => rfl

theorem handshaken_step [DecidableEq κ] (net : Nat → Nat → SendStep) (s : Greeting κ)
    (op : ClientOp κ) (h : s.Handshaken) (hok : s.NoSwap op) : (s.step net op).Handshaken := by
  by_cases hopen : s.world.Opens op
  · cases op with
    | connect timeoutMs run =>
      obtain ⟨fd, hfd⟩ := Option.isSome_iff_exists.1 hopen
      have hstep : s.step net (.connect timeoutMs run) =
          ⟨(s.world.connect timeoutMs run).1, fd, s.world.infoSent fd run.net⟩ := by
        simp only [step, hfd, ClientWorld.step]
      rw [hstep]
      exact onLast_connect hfd
    | sendTimeout timeoutMs outcome => exact absurd hopen hok
    | _ => exact hopen.elim
  · rw [step_of_not_opens hopen]
    exact h.step hopen

/-- A connection that replaces a live one is published without a handshake. -/
theorem not_handshaken_step [DecidableEq κ] (net : Nat → Nat → SendStep) (s : Greeting κ)
    (op : ClientOp κ) (hbad : ¬ s.NoSwap op) : ¬ (s.step net op).Handshaken := by
  cases op with
  | sendTimeout timeoutMs outcome =>
    obtain ⟨hc, ht, hfd⟩ := not_not.1 hbad
    obtain ⟨t, ht⟩ := Option.isSome_iff_exists.1 ht
    obtain ⟨fd, rfl⟩ := Option.isSome_iff_exists.1 hfd
    intro h
    have hconn : (s.step net (.sendTimeout timeoutMs (some fd))).world.isConnect = true := by
      simp only [step, ClientWorld.step, ClientWorld.setSendTimeout, ClientWorld.setClient, hc, ht]
      rfl
    have hsent : (s.step net (.sendTimeout timeoutMs (some fd))).infoSent = false := by
      simp only [step, hc, ht]
    exact absurd ((h hconn).1.symm.trans hsent) (by decide)
  | _ => exact absurd trivial hbad

end Greeting

/-- **Connected and handshaken.** In every run of a client, whatever the network does: whenever the
client reports itself connected, its transport is a connection on which it has sent `SERVICE_INFO`
and received the reply, if and only if `ssn_client_send_timeout` never replaces a live
connection. -/
theorem handshaken_iff_noSwap [DecidableEq κ] (net : Nat → Nat → SendStep)
    (ops : List (ClientOp κ)) :
    Runs.Always (Greeting.step net) Greeting.Handshaken .init ops ↔
      Runs.EachStep (Greeting.step net) Greeting.NoSwap .init ops :=
  Runs.always_iff_eachStep (G := fun _ _ => True)
    (fun s op h _ hok => Greeting.handshaken_step net s op h hok) (fun _ h => h)
    (fun s op _ _ hbad => Greeting.not_handshaken_step net s op hbad)
    (fun hc => by cases hc) Runs.eachStep_true

/-- A handshake, and then a new send timeout. -/
def swapped : List (ClientOp Nat) := [answered, .sendTimeout 500 (some 6)]

/-- The client is connected and has not sent `SERVICE_INFO` on its connection. -/
theorem swapped_not_handshaken :
    ¬ Runs.Always (Greeting.step fun _ _ => .failed) Greeting.Handshaken .init swapped := by
  intro h
  exact absurd (h _ (List.prefix_refl _) (by decide +kernel)).1 (by decide +kernel)

end Ssn
