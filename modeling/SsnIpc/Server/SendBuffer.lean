import SsnIpc.Frame.RoundTrip
import SsnIpc.Lib.Runs
import SsnIpc.Server.Dispatch

/-!
# Two threads and one send buffer

Every frame is built in `server->sendbuf`. Whoever sends holds `server->lock` from the header to
the send, with one exception: `ssn_server_handle_service_info` writes the header of its reply
under the lock, releases it, and then fills in the rest and sends.

Two threads take turns here. The poll thread handles frames, a SERVICE_INFO in two steps; the
other thread publishes, sends messages and responses, each in one step.

**Theorem (`framesIntact_of_exclusive`).** If no call of the other thread writes to the buffer
between the two steps of a SERVICE_INFO, every frame put on a wire is the encoding of the message
it was sent for.

Without that, the reply goes out under the header of somebody else's message
(`reply_under_publish_header`).
-/

namespace Ssn

open ByteMem

variable {β : Type*} {net : Nat → Nat → SendStep} {w : World β} {id : UInt32}

/-! ## The model -/

/-- The reply of `ssn_server_handle_service_info`. -/
def serviceInfoReply (id : UInt32) (f : Frame) : Message :=
  replyTo f 0 (some (Ref.ofBytes (toBe 4 id.toNat)))

namespace World

/-- `ssn_server_input` with a SERVICE_INFO up to the place where the lock is released: the header of
the reply is in the send buffer. -/
def beginServiceInfo (w : World β) (id : UInt32) (f : Frame) : World β :=
  (((w.emit (.input id f)).touch id).createHeader (serviceInfoReply id f)).modifyCli id
    (startIdle w.server.keepaliveTimeout)

def endServiceInfo (net : Nat → Nat → SendStep) (w : World β) (id : UInt32) (f : Frame) : World β :=
  (w.cliSendmsg net id (serviceInfoReply id f)).noteConnected id

/-- The two steps together are what `ssn_server_input` does. -/
theorem input_serviceInfo {f : Frame} (hf : getMsgType f = MsgType.serviceInfo) :
    w.input net id f = (w.beginServiceInfo id f).endServiceInfo net id f := by
  rw [input_eq, dispatch_serviceInfo hf]
  rfl

end World

/-- A server and its two threads. `reply` is the SERVICE_INFO whose reply the poll thread is about
to send. -/
structure TwoThreads (β : Type*) where
  world : World β
  reply : Option (UInt32 × Frame)

inductive ThreadStep
  /-- The poll thread takes a frame of the client. -/
  | frame (id : UInt32) (f : Frame)
  /-- The poll thread sends the reply to a SERVICE_INFO. -/
  | sendReply
  /-- The other thread makes a call. -/
  | publish (url : Bytes) (data : Option Ref)
  | response (id : UInt32) (status : UInt32) (seqno : UInt16) (data : Option Ref)
  | message (id : UInt32) (url : Bytes) (data : Ref)

namespace TwoThreads

/-- One step. The poll thread takes no frame before its reply is out. -/
def step (net : Nat → Nat → SendStep) (s : TwoThreads β) : ThreadStep → TwoThreads β
  | .frame id f =>
    if s.reply.isSome then s
    else if getMsgType f = MsgType.serviceInfo then
      ⟨s.world.beginServiceInfo id f, some (id, f)⟩
    else { s with world := s.world.input net id f }
  | .sendReply => s.reply.elim s fun r => ⟨s.world.endServiceInfo net r.1 r.2, none⟩
  | .publish url data => { s with world := s.world.publish net url data }
  | .response id status seqno data =>
    { s with world := s.world.response net id status seqno data }
  | .message id url data => { s with world := s.world.message net id url data }

end TwoThreads

/-! ## Properties -/

/-- A send puts the encoding of its message on the wire, or the beginning of it if it fails. -/
def ServerEvent.Intact : ServerEvent β → Prop
  | .sent _ msg out => out.accepted <+: msg.packet ∧ (out.ret = true → out.accepted = msg.packet)
  | _ => True

instance : DecidablePred (ServerEvent.Intact (β := β))
  | .sent _ msg out => inferInstanceAs
      (Decidable (out.accepted <+: msg.packet ∧ (out.ret = true → out.accepted = msg.packet)))
  | .accepted _ | .received _ _ | .input _ _ | .oncli _ _ | .onrpc _ _ _ | .onmsg _ _
  | .removed _ => isTrue trivial

/-- Every frame on a wire is the encoding of the message it was sent for. -/
def FramesIntact (s : TwoThreads β) : Prop := ∀ e ∈ s.world.log, e.Intact

/-- The step is a call that writes to the send buffer. -/
def ThreadStep.writes (w : World β) : ThreadStep → Bool
  | .publish url _ => urlOk url
  | .response id _ _ _ => (w.server.cliFind id).isSome
  | .message id url _ => urlOk url && (w.server.cliFind id).isSome
  | .frame _ _ | .sendReply => false

/-- No call writes to the send buffer while a reply is about to be sent. -/
def Exclusive (s : TwoThreads β) (e : ThreadStep) : Prop :=
  s.reply.isSome = true → e.writes s.world = false

/-! ## The buffer and what is sent from it -/

namespace World

/-- The send buffer holds the header of the message, if that can be sent at all. -/
def BufferHolds (w : World β) (msg : Message) : Prop :=
  Sendable msg.url msg.data → ∃ h, HeaderReady w.server.sendbuf h msg.url msg.data ∧
    packetOf h msg.url msg.data = msg.packet

theorem bufferHolds_createHeader (w : World β) (msg : Message) :
    (w.createHeader msg).BufferHolds msg :=
  fun _ => ⟨_, headerReady_createHeader .., rfl⟩

/-- **A send from a buffer with the right header is intact,** and leaves the header for the
next. -/
theorem intact_cliSendmsg (net : Nat → Nat → SendStep) (id : UInt32) {msg : Message}
    (hb : w.BufferHolds msg) :
    Grows ServerEvent.Intact w (w.cliSendmsg net id msg) ∧
      (w.cliSendmsg net id msg).BufferHolds msg := by
  cases hc : w.server.cliFind id with
  | none =>
    rw [cliSendmsg_none net msg hc]
    exact ⟨.of_eq rfl, hb⟩
  | some cli =>
    obtain ⟨hlog, hbuf, -⟩ := cliSendmsg_spec net w id msg hc
    refine ⟨⟨_, hlog, fun e he => ?_⟩, fun hs => ?_⟩
    · obtain rfl := List.mem_singleton.1 he
      by_cases hs : Sendable msg.url msg.data
      · obtain ⟨h, hh, hp⟩ := hb hs
        have haccepted := sendMessage_accepted_prefix cli.transport (net w.log.length) hh
        rw [hp] at haccepted
        exact ⟨haccepted, fun hret => (sendMessage_true hh hret).2.trans hp⟩
      · rw [sendMessage_of_not _ _ _ hs]
        exact ⟨List.nil_prefix, nofun⟩
    · obtain ⟨h, hh, hp⟩ := hb hs
      rw [hbuf]
      exact ⟨_, hh.sendMessage hs _ _, (packetOf_withLengths ..).trans hp⟩

theorem intact_send (w : World β) (msg : Message) :
    Grows ServerEvent.Intact w (w.send net id msg) :=
  (Grows.of_eq rfl).trans (intact_cliSendmsg net id (bufferHolds_createHeader w msg)).1

theorem intact_sendTo (w : World β) (msg : Message) :
    Grows ServerEvent.Intact w (w.sendTo net id msg) := by
  unfold sendTo
  split_ifs
  · exact intact_send w msg
  · exact .of_eq rfl

theorem intact_publish (w : World β) (url : Bytes) (data : Option Ref) :
    Grows ServerEvent.Intact w (w.publish net url data) := by
  unfold publish
  split_ifs
  · have hstart : Grows ServerEvent.Intact w (w.createHeader (publishMsg url data)) ∧
        (w.createHeader (publishMsg url data)).BufferHolds (publishMsg url data) :=
      ⟨.of_eq rfl, bufferHolds_createHeader w _⟩
    refine (List.foldlRecOn (motive := fun w' : World β =>
      Grows ServerEvent.Intact w w' ∧ w'.BufferHolds (publishMsg url data)) _ _ hstart
      fun w' hw' c _ => ?_).1
    unfold publishTo
    split_ifs
    · obtain ⟨hgrow, hb⟩ := intact_cliSendmsg net c.id hw'.2
      exact ⟨hw'.1.trans hgrow, hb⟩
    · exact hw'
  · exact .of_eq rfl

/-- All frames but SERVICE_INFO are answered under the lock. -/
theorem intact_input (w : World β) {f : Frame} (hf : getMsgType f ≠ MsgType.serviceInfo) :
    Grows ServerEvent.Intact w (w.input net id f) := by
  have htouch : Grows ServerEvent.Intact w ((w.emit (.input id f)).touch id) :=
    ⟨[.input id f], rfl, by simp [ServerEvent.Intact]⟩
  exact htouch.trans
    (grows_dispatch_plain hf (fun w' msg => intact_send w' msg) (fun _ _ _ => trivial)
      fun _ _ => trivial)

end World

/-! ## The steps -/

theorem FramesIntact.grows {s : TwoThreads β} {w' : World β} {reply : Option (UInt32 × Frame)}
    (h : FramesIntact s) (hgrow : World.Grows ServerEvent.Intact s.world w') :
    FramesIntact ⟨w', reply⟩ := by
  obtain ⟨es, he, hes⟩ := hgrow
  intro e hmem
  rw [he] at hmem
  exact (List.mem_append.1 hmem).elim (h e) (hes e)

namespace TwoThreads

/-- While a reply is about to be sent, the buffer holds its header. -/
structure Inv (s : TwoThreads β) : Prop where
  intact : FramesIntact s
  reply : ∀ r, s.reply = some r → s.world.BufferHolds (serviceInfoReply r.1 r.2)

variable {s : TwoThreads β}

/-- A call of the other thread: while a reply is about to be sent, it does nothing. -/
theorem Inv.call {w' : World β} (h : s.Inv) (hgrow : World.Grows ServerEvent.Intact s.world w')
    (hsame : s.reply.isSome = true → w' = s.world) : Inv { s with world := w' } where
  intact := FramesIntact.grows h.intact hgrow
  reply r hr := by
    rw [hsame (by simp [show s.reply = some r from hr])]
    exact h.reply r hr

theorem sendTo_none (net : Nat → Nat → SendStep) {msg : Message}
    (h : (w.server.cliFind id).isSome = false) : w.sendTo net id msg = w :=
  if_neg (by rw [h]; exact Bool.false_ne_true)

theorem Inv.step (h : s.Inv) (e : ThreadStep) (hex : Exclusive s e) : (s.step net e).Inv := by
  -- A SERVICE_INFO leaves its header in the buffer, and `hex` keeps others from writing there.
  cases e with
  | frame id f =>
    simp only [TwoThreads.step]
    split_ifs with hr hf
    · exact h
    · refine ⟨FramesIntact.grows h.intact ?_, fun r hr => ?_⟩
      · exact ⟨[.input id f], rfl, by simp [ServerEvent.Intact]⟩
      · obtain rfl := Option.some.inj hr
        exact World.bufferHolds_createHeader ((s.world.emit (.input id f)).touch id) _
    · refine ⟨FramesIntact.grows h.intact (World.intact_input _ hf), fun r hr' => ?_⟩
      exact absurd (Option.isSome_iff_exists.2 ⟨r, hr'⟩) hr
  | sendReply =>
    simp only [TwoThreads.step]
    cases hr : s.reply with
    | none => exact h
    | some r =>
      refine ⟨FramesIntact.grows h.intact ?_, nofun⟩
      apply (World.intact_cliSendmsg net r.1 (h.reply r hr)).1.trans
      exact World.grows_noteConnected fun _ _ => trivial
  | publish url data =>
    refine h.call (World.intact_publish _ url data) fun hr => if_neg ?_
    rw [show urlOk url = false from hex hr]
    exact Bool.false_ne_true
  | response id status seqno data =>
    exact h.call (World.intact_sendTo _ _) fun hr => sendTo_none net (hex hr)
  | message id url data =>
    simp only [TwoThreads.step, World.message]
    split_ifs with hu
    · refine h.call (World.intact_sendTo _ _) fun hr => sendTo_none net ?_
      have hw := hex hr
      rwa [ThreadStep.writes, hu, Bool.true_and] at hw
    · exact h

/-- A server on which nothing was sent yet. -/
def start (s : Server β) : TwoThreads β := ⟨⟨s, []⟩, none⟩

end TwoThreads

/-! ## Interleavings -/

/-- **Frames are intact if the buffer is left alone.** In every interleaving in which no call
writes to the send buffer between the header of a SERVICE_INFO reply and its send, every frame on
a wire is the encoding of the message it was sent for. -/
theorem framesIntact_of_exclusive (net : Nat → Nat → SendStep) (s : Server β)
    (es : List ThreadStep)
    (hex : Runs.EachStep (TwoThreads.step net) Exclusive (.start s) es) :
    Runs.Always (TwoThreads.step net) FramesIntact (.start s) es :=
  Runs.always_of_invariant (fun (_ : TwoThreads β) e (hs : TwoThreads.Inv _) he => hs.step e he)
    (fun _ hs => hs.intact) ⟨nofun, nofun⟩ hex

def oneClient : Server Unit := ((World.init (Server.create 0)).handleNewConnection 5).server

/-- A publication before the SERVICE_INFO is taken does no harm. -/
theorem publish_then_reply_intact :
    Runs.Always (TwoThreads.step acceptAll) FramesIntact (.start oneClient)
      [.publish [slash, 0x61] none, .frame 0 (bareFrame MsgType.serviceInfo 7), .sendReply] := by
  refine framesIntact_of_exclusive _ _ _ ?_
  refine Runs.eachStep_cons.2 ⟨nofun, Runs.eachStep_cons.2 ⟨nofun, Runs.eachStep_cons.2 ⟨?_,
    Runs.eachStep_nil⟩⟩⟩
  exact fun _ => rfl

/-- A publication while the reply is about to be sent: the client gets the reply under a PUBLISH
header. -/
theorem reply_under_publish_header :
    ¬ Runs.Always (TwoThreads.step acceptAll) FramesIntact (.start oneClient)
      [.frame 0 (bareFrame MsgType.serviceInfo 7), .publish [slash, 0x61] none, .sendReply] := by
  intro h
  exact absurd (h _ (List.prefix_refl _)) (by unfold FramesIntact; decide +kernel)

end Ssn
