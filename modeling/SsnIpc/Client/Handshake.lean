import SsnIpc.Client.Connections
import SsnIpc.Frame.RoundTrip

/-!
# Frames behind the handshake

While `ssn_client_connect` waits for the reply to `SERVICE_INFO`, the stream parser passes frames
to `ssn_client_conn_input`, which drops all others. So a frame that is complete in the same receive
as the reply is lost, and one that comes later is dispatched to `ssn_client_input` by a poll.

**Theorem (`dispatched_iff_replyLast`).** The frames behind the reply are dispatched, each of them
once and in order, exactly when the receive that completes the reply completes no other frame.

Up to the reply the receive context holds all that was received (`handshake_spec`); behind it, the
polls take over what is left (`inputs_pollAll`).
-/

namespace Ssn

open ByteMem

variable {κ : Type*} {net : Nat → Nat → SendStep} {w w' : ClientWorld κ}

/-- The server's reply to `SERVICE_INFO`, as `ssn_client_conn_input` knows it. -/
def InfoReply (f : Frame) : Prop :=
  getMsgType f = MsgType.serviceInfo ∧ getStatus f = 0 ∧ f.data ≠ []

instance (f : Frame) : Decidable (InfoReply f) := inferInstanceAs (Decidable (_ ∧ _ ∧ _))

namespace ClientWorld

/-! ## Connecting -/

/-- The client that sends `SERVICE_INFO` in `ssn_client_connect`. -/
def greeting (w : ClientWorld κ) : ClientWorld κ :=
  ((w.setClient { w.client with connected := false, transport := none }).timeoutAll.emit
    .opened).createHeader ⟨MsgType.serviceInfo, 0, 0, none, none⟩

theorem greeting_quiet (w : ClientWorld κ) :
    ∃ v, Quiet (w.setClient { w.client with connected := false, transport := none }) v ∧
      w.greeting = (v.emit .opened).createHeader ⟨MsgType.serviceInfo, 0, 0, none, none⟩ :=
  ⟨_, quiet_timeoutAll, rfl⟩

/-- The transport `ssn_client_connect` makes. -/
def dialled (w : ClientWorld κ) (fd : Nat) : Transport := ⟨fd, w.greeting.client.sendTimeout⟩

/-- `SERVICE_INFO` gets through on the connection that `ssn_client_connect` makes. -/
def infoSent (w : ClientWorld κ) (fd : Nat) (net : Nat → SendStep) : Bool :=
  clientSend (w.dialled fd) w.greeting.client.sendbuf headerSize 0 net

theorem connect_some {timeoutMs : Option Nat} {run : ConnectRun} {fd : Nat}
    (hfd : run.fd = some fd) :
    w.connect timeoutMs run =
      if w.infoSent fd run.net then
        let out := w.greeting.handshake (maxRetries (timeoutMs.getD 3000)) run.recvs
        if out.2 then
          (out.1.setClient { out.1.client with
            transport := some (w.dialled fd), connected := true }, true)
        else (out.1, false)
      else (w.greeting, false) := by
  rw [connect, dial, hfd, infoSent, dialled, greeting]
  obtain ⟨v, hv⟩ : ∃ v, v = (w.setClient
    { w.client with connected := false, transport := none }).timeoutAll := ⟨_, rfl⟩
  rw [← hv]
  rfl

end ClientWorld

/-! ## What is received -/

/-- A receive on a connection that stays up: some bytes, or none yet. -/
def RecvResult.Up : RecvResult → Prop
  | .data buf => buf ≠ [] ∧ buf.length ≤ maxPacketSize
  | .again => True
  | .eof | .error => False

namespace HandshakeRecv

def chunk (r : HandshakeRecv) : Bytes :=
  match r.result with
  | .data buf => buf
  | _ => []

def stream (recvs : List HandshakeRecv) : Bytes := (recvs.map chunk).flatten

@[simp] theorem stream_nil : stream [] = [] := rfl

@[simp] theorem stream_cons (r : HandshakeRecv) (recvs : List HandshakeRecv) :
    stream (r :: recvs) = r.chunk ++ stream recvs := rfl

/-- The number of bytes that have been received once there are `n`. -/
def arrived (n : Nat) : List HandshakeRecv → Nat
  | [] => 0
  | r :: recvs =>
    r.chunk.length + if n ≤ r.chunk.length then 0 else arrived (n - r.chunk.length) recvs

theorem up_cases {r : HandshakeRecv} (h : r.result.Up) :
    (r.result = .again ∧ r.chunk = []) ∨
      ∃ buf, r.result = .data buf ∧ r.chunk = buf ∧ buf ≠ [] ∧ buf.length ≤ maxPacketSize := by
  unfold chunk
  cases hr : r.result with
  | data buf =>
    rw [hr] at h
    exact Or.inr ⟨buf, rfl, rfl, h⟩
  | again => exact Or.inl ⟨rfl, rfl⟩
  | eof =>
    rw [hr] at h
    exact h.elim
  | error =>
    rw [hr] at h
    exact h.elim

end HandshakeRecv

open HandshakeRecv

namespace ClientWorld

/-- What is still to be received when the loop of `ssn_client_connect` ends. -/
def handshakeRest (w : ClientWorld κ) : Nat → List HandshakeRecv → List HandshakeRecv
  | 0, recvs => recvs
  | _ + 1, [] => []
  | retries + 1, r :: recvs =>
    match r.result with
    | .data buf =>
      if buf = [] then recvs
      else
        match w.feedConn (buf.take maxPacketSize) with
        | ((w, packetCnt), true) => if 0 < packetCnt then recvs else handshakeRest w retries recvs
        | ((w, _), false) => if r.stale then handshakeRest w retries recvs else recvs
    | .eof => recvs
    | .error => recvs
    | .again => handshakeRest w retries recvs

def pollAll (w : ClientWorld κ) (recvs : List HandshakeRecv) : ClientWorld κ :=
  recvs.foldl (fun w r => w.poll (.ready (some r.result))) w

end ClientWorld

/-- The frame dispatched to `ssn_client_input`. -/
def ClientEvent.dispatched : ClientEvent κ → Option Frame
  | .input f => some f
  | _ => none

namespace ClientWorld

/-- The frames that were dispatched to `ssn_client_input`. -/
def inputs (w : ClientWorld κ) : List Frame := w.log.filterMap ClientEvent.dispatched

@[simp] theorem inputs_emit (e : ClientEvent κ) :
    (w.emit e).inputs = w.inputs ++ e.dispatched.toList := by
  cases h : e.dispatched <;> simp [inputs, emit, h]

theorem Quiet.inputs (h : Quiet w w') : w'.inputs = w.inputs := by
  obtain ⟨es, hes, hm⟩ := h.log
  have hnil : es.filterMap ClientEvent.dispatched = [] := by
    rw [List.filterMap_eq_nil_iff]
    intro e he
    have hminor := hm e he
    cases e <;> first | exact hminor.elim | rfl
  rw [ClientWorld.inputs, hes, List.filterMap_append, hnil, List.append_nil]
  rfl

theorem inputs_foldl_input (fs : List Frame) (w : ClientWorld κ) :
    (fs.foldl input w).inputs = w.inputs ++ fs := by
  induction fs generalizing w with
  | nil => simp
  | cons f fs ih =>
    have hf : (w.input f).inputs = w.inputs ++ [f] := by
      rw [(quiet_input f).inputs, inputs_emit]
      rfl
    rw [List.foldl_cons, ih, hf, List.append_assoc]
    rfl

theorem inputs_foldl_connInput (fs : List Frame) (arg : ClientWorld κ × Nat) :
    (fs.foldl connInput arg).1.inputs = arg.1.inputs := by
  induction fs generalizing arg with
  | nil => rfl
  | cons f fs ih =>
    have hf : (connInput arg f).1.inputs = arg.1.inputs := by
      rw [(quiet_connInput arg.2 f).inputs, inputs_emit]
      exact List.append_nil _
    rw [List.foldl_cons, ih, hf]

/-! ## The handshake -/

theorem packetCnt_le (fs : List Frame) (arg : ClientWorld κ × Nat) :
    arg.2 ≤ (fs.foldl connInput arg).2 := by
  induction fs generalizing arg with
  | nil => exact Nat.le_refl _
  | cons f fs ih =>
    refine Nat.le_trans ?_ (ih _)
    simp only [connInput]
    split_ifs <;> simp

theorem packetCnt_pos {info : Frame} (hinfo : InfoReply info) (fs : List Frame)
    (arg : ClientWorld κ × Nat) : 0 < ((info :: fs).foldl connInput arg).2 := by
  refine Nat.lt_of_lt_of_le ?_ (packetCnt_le fs _)
  obtain ⟨htype, hstatus, hdata⟩ := hinfo
  simp only [connInput]
  rw [if_neg (by simp [htype, hstatus, hdata])]
  split_ifs <;> exact Nat.succ_pos _

/-- Bytes received in a handshake, as long as no header is invalid. -/
theorem feedConn_accept (buf : Bytes) (hready : w.client.recv.Ready) {r : Bytes}
    (hr : (refParse (w.client.recv.unread ++ buf)).2 = some r) :
    ∃ w' packetCnt, w.feedConn buf = ((w', packetCnt), true) ∧ w'.client.recv.Ready ∧
      w'.client.recv.unread = r ∧ w'.inputs = w.inputs ∧
      packetCnt = ((refFrames (w.client.recv.unread ++ buf)).foldl connInput
        (w.emit (.received buf), 0)).2 := by
  have hinputs := inputs_foldl_connInput (refFrames (w.client.recv.unread ++ buf))
    (w.emit (.received buf), 0)
  rw [inputs_emit] at hinputs
  have hspec := streamFeed_accept connInput (w.emit (.received buf), 0) hready hr
  generalize hout : streamFeed (fun arg f => (connInput arg f, true)) w.client.recv buf
    (w.emit (.received buf), 0) = out at hspec
  have hfed : w.feedConn buf = ((out.2.1.1.setClient { out.2.1.1.client with recv := out.1 },
      out.2.1.2), out.2.2.ret) := by
    rw [← hout]
    rfl
  obtain ⟨h2, hready', hunread⟩ := hspec
  rw [h2] at hfed
  exact ⟨_, _, hfed, hready', hunread, hinputs.trans (List.append_nil _), rfl⟩

theorem feedConn_part {info : Frame} {buf rest behind : Bytes} (hready : w.client.recv.Ready)
    (hcut : w.client.recv.unread ++ buf ++ rest = info.bytes ++ behind)
    (hpart : (w.client.recv.unread ++ buf).length < info.bytes.length) :
    ∃ w', w.feedConn buf = ((w', 0), true) ∧ w'.client.recv.Ready ∧
      w'.client.recv.unread = w.client.recv.unread ++ buf ∧ w'.inputs = w.inputs := by
  have hwait := refNext_part hcut hpart
  obtain ⟨w', n, hfed, hready', hunread, hinputs, hn⟩ :=
    feedConn_accept buf hready (by rw [refParse_wait hwait])
  rw [refFrames_wait hwait] at hn
  obtain rfl : n = 0 := hn
  exact ⟨w', hfed, hready', hunread, hinputs⟩

/-- The reply is complete, and `t` came with it. -/
theorem feedConn_whole {info : Frame} (hinfo : InfoReply info) {frames : List Frame}
    {buf rest : Bytes} (hready : w.client.recv.Ready)
    (hcut : w.client.recv.unread ++ buf ++ rest =
      info.bytes ++ (frames.map Frame.bytes).flatten)
    (hwhole : info.bytes.length ≤ (w.client.recv.unread ++ buf).length) :
    ∃ w' n t, w.feedConn buf = ((w', n), true) ∧ 0 < n ∧
      info.bytes ++ t = w.client.recv.unread ++ buf ∧
      t ++ rest = (frames.map Frame.bytes).flatten ∧
      (refParse t).2 = some w'.client.recv.unread ∧ w'.client.recv.Ready ∧
      w'.inputs = w.inputs := by
  obtain ⟨t, ht⟩ : info.bytes <+: w.client.recv.unread ++ buf :=
    List.prefix_of_prefix_length_le (List.prefix_append ..) (hcut ▸ List.prefix_append ..) hwhole
  rw [← ht, List.append_assoc, List.append_cancel_left_eq] at hcut
  obtain ⟨left, hleft⟩ := exists_leftover hcut
  obtain ⟨w', n, hfed, hready', hunread, hinputs, hn⟩ :=
    feedConn_accept buf hready (r := left) (by rw [← ht, refParse_cons, hleft])
  rw [← ht, refFrames_cons] at hn
  exact ⟨w', n, t, hfed, hn ▸ packetCnt_pos hinfo .., ht, hcut, hunread.symm ▸ hleft, hready',
    hinputs⟩

/-- **The handshake.** As long as less than the reply is there, the receive context holds all that
was received. The loop ends with the receive that completes the reply; what came with it (`t`) is
parsed, and a part of a frame at its end is kept. -/
theorem handshake_spec {info : Frame} (hinfo : InfoReply info) (frames : List Frame) (retries : Nat)
    (recvs : List HandshakeRecv) (hup : ∀ r ∈ recvs, r.result.Up) (hready : w.client.recv.Ready)
    (hlt : w.client.recv.unread.length < info.bytes.length)
    (hcut : w.client.recv.unread ++ stream recvs =
      info.bytes ++ (frames.map Frame.bytes).flatten)
    (hok : (w.handshake retries recvs).2 = true) :
    ∃ t, t ++ stream (w.handshakeRest retries recvs) = (frames.map Frame.bytes).flatten ∧
      w.client.recv.unread.length +
          arrived (info.bytes.length - w.client.recv.unread.length) recvs =
        info.bytes.length + t.length ∧
      (refParse t).2 = some (w.handshake retries recvs).1.client.recv.unread ∧
      (w.handshake retries recvs).1.client.recv.Ready ∧
      (w.handshake retries recvs).1.inputs = w.inputs ∧
      ∀ r ∈ w.handshakeRest retries recvs, r.result.Up := by
  induction retries generalizing w recvs with
  | zero => cases hok
  | succ retries ih =>
    cases recvs with
    | nil => cases hok
    | cons r recvs =>
      obtain ⟨hr, hrest⟩ := List.forall_mem_cons.1 hup
      rw [stream_cons, ← List.append_assoc] at hcut
      rw [handshake] at hok
      rw [handshake, handshakeRest, arrived]
      -- A try brings nothing, a part of the reply, or the reply with what comes behind it.
      obtain ⟨hres, hchunk⟩ | ⟨buf, hres, hchunk, hne, hlen⟩ := up_cases hr
      · simp only [hres] at hok ⊢
        rw [hchunk, List.append_nil] at hcut
        simp only [hchunk, List.length_nil]
        rw [if_neg (by omega), Nat.zero_add, Nat.sub_zero]
        exact ih recvs hrest hready hlt hcut hok
      · rw [hchunk] at hcut
        simp only [hres, hchunk, if_neg hne, List.take_of_length_le hlen] at hok ⊢
        by_cases hpart : (w.client.recv.unread ++ buf).length < info.bytes.length
        · obtain ⟨w', hfed, hready', hunread, hinputs⟩ := feedConn_part hready hcut hpart
          simp only [hfed, if_neg (Nat.lt_irrefl 0)] at hok ⊢
          rw [← hunread] at hcut hpart
          have hlength := congrArg List.length hunread
          rw [List.length_append] at hlength
          rw [if_neg (by omega)]
          have hend := ih recvs hrest hready' hpart hcut hok
          rwa [hinputs, show info.bytes.length - w'.client.recv.unread.length =
            info.bytes.length - w.client.recv.unread.length - buf.length by omega, hlength,
            Nat.add_assoc] at hend
        · rw [Nat.not_lt] at hpart
          obtain ⟨w', n, t, hfed, hpos, ht, hbehind, hleft, hready', hinputs⟩ :=
            feedConn_whole hinfo hready hcut hpart
          simp only [hfed, if_pos hpos]
          have hlength := congrArg List.length ht
          rw [List.length_append, List.length_append] at hlength
          rw [List.length_append] at hpart
          refine ⟨t, hbehind, ?_, hleft, hready', hinputs, hrest⟩
          rw [if_pos (by omega)]
          omega

/-! ## The polls -/

/-- The client is on an open connection. -/
structure Listening (w : ClientWorld κ) : Prop where
  connected : w.client.connected = true
  isOpen : w.isOpen = true
  ready : w.client.recv.Ready

theorem Listening.of_quiet (h : Listening w) (hq : Quiet w w') : Listening w' := by
  refine ⟨(congrArg Link.connected hq.link).trans h.connected, ?_, hq.recv ▸ h.ready⟩
  have htr : w'.client.transport = w.client.transport := congrArg Link.transport hq.link
  rw [ClientWorld.isOpen, htr]
  exact h.isOpen

theorem Listening.foldl_input (fs : List Frame) (h : Listening w) :
    Listening (fs.foldl input w) := by
  induction fs generalizing w with
  | nil => exact h
  | cons f fs ih =>
    have hemit : Listening (w.emit (.input f)) := ⟨h.connected, h.isOpen, h.ready⟩
    exact ih (hemit.of_quiet (quiet_input f))

/-- Bytes received by a poll, as long as no header is invalid. -/
theorem poll_accept {buf r : Bytes} (hbuf : buf ≠ [] ∧ buf.length ≤ maxPacketSize)
    (h : Listening w) (hr : (refParse (w.client.recv.unread ++ buf)).2 = some r) :
    Listening (w.poll (.ready (some (.data buf)))) ∧
      (w.poll (.ready (some (.data buf)))).client.recv.unread = r ∧
      (w.poll (.ready (some (.data buf)))).inputs =
        w.inputs ++ refFrames (w.client.recv.unread ++ buf) := by
  have hinputs := inputs_foldl_input (refFrames (w.client.recv.unread ++ buf))
    (w.emit (.received buf))
  have hemit : Listening (w.emit (.received buf)) := ⟨h.connected, h.isOpen, h.ready⟩
  have hlisten := hemit.foldl_input (refFrames (w.client.recv.unread ++ buf))
  rw [inputs_emit] at hinputs
  have hspec := streamFeed_accept input (w.emit (.received buf)) h.ready hr
  generalize hout : streamFeed (fun w f => (input w f, true)) w.client.recv buf
    (w.emit (.received buf)) = out at hspec
  obtain ⟨h2, hready, hunread⟩ := hspec
  have hfed : w.feedInput buf =
      (out.2.1.setClient { out.2.1.client with recv := out.1 }, out.2.2.ret) := by
    rw [← hout]
    rfl
  rw [h2] at hfed
  -- The parser takes all bytes, and then the timer's event is handled, which is quiet.
  have hpoll : w.poll (.ready (some (.data buf))) = (w.feedInput buf).1.handleEvent := by
    rw [poll, processEvents, if_pos h.connected, if_pos h.isOpen]
    simp only [if_neg hbuf.1, List.take_of_length_le hbuf.2, hfed, FeedEnd.ret, if_true]
  rw [hpoll, hfed]
  generalize (refFrames (w.client.recv.unread ++ buf)).foldl input (w.emit (.received buf)) = v
    at hinputs hlisten ⊢
  have hset : Listening (v.setClient { v.client with recv := out.1 }) :=
    ⟨hlisten.connected, hlisten.isOpen, hready⟩
  have hq := quiet_handleEvent (w := v.setClient { v.client with recv := out.1 })
  refine ⟨hset.of_quiet hq, ?_, ?_⟩
  · rw [hq.recv]
    exact hunread
  · rw [hq.inputs]
    exact hinputs.trans (by simp [ClientEvent.dispatched])

/-- **The polls.** They dispatch what is in the receive context and what they receive. -/
theorem inputs_pollAll {recvs : List HandshakeRecv} (hup : ∀ r ∈ recvs, r.result.Up) {r : Bytes}
    (h : Listening w) (hr : (refParse (w.client.recv.unread ++ stream recvs)).2 = some r) :
    (w.pollAll recvs).inputs =
      w.inputs ++ refFrames (w.client.recv.unread ++ stream recvs) := by
  induction recvs generalizing w with
  | nil =>
    rw [stream_nil, List.append_nil, refFrames_wait h.ready.waits, List.append_nil]
    rfl
  | cons a recvs ih =>
    obtain ⟨ha, hrest⟩ := List.forall_mem_cons.1 hup
    rw [stream_cons, ← List.append_assoc] at hr ⊢
    rw [pollAll, List.foldl_cons, ← pollAll]
    obtain ⟨hres, hchunk⟩ | ⟨buf, hres, hchunk, hbuf⟩ := up_cases ha
    · have hpoll : w.poll (.ready (some .again)) = w.handleEvent := by
        rw [poll, processEvents, if_pos h.connected, if_pos h.isOpen]
        rfl
      have hq := quiet_handleEvent (w := w)
      rw [hchunk, List.append_nil, ← hq.recv] at hr ⊢
      rw [hres, hpoll, ← hq.inputs]
      exact ih hrest (h.of_quiet hq) hr
    · rw [hchunk] at hr ⊢
      rw [hres]
      cases hleft : (refParse (w.client.recv.unread ++ buf)).2 with
      | none =>
        rw [refParse_append_none hleft, hleft] at hr
        cases hr
      | some r' =>
        obtain ⟨hlisten, hunread, hinputs⟩ := poll_accept hbuf h hleft
        rw [refParse_append hleft, ← hunread] at hr
        rw [refFrames_append hleft, ← hunread, ih hrest hlisten hr, hinputs, List.append_assoc]

end ClientWorld

/-! ## The receive context of a client -/

theorem ClientWorld.closed_ready : Closed (fun w : ClientWorld κ => w.client.recv.Ready) where
  quiet hq h := hq.recv ▸ h
  input _ h := (streamFeed_spec _ _ _ _ h).ready
  conn _ h := (streamFeed_spec _ _ _ _ h).ready
  down _ h := h
  up _ h := h

/-- The receive context is in order in every reachable state. -/
theorem ready_run [DecidableEq κ] (net : Nat → Nat → SendStep) (ops : List (ClientOp κ)) :
    (Runs.run (ClientWorld.step net) ⟨.create, []⟩ ops).client.recv.Ready :=
  Runs.run_invariant (fun (w : ClientWorld κ) op (h : w.client.recv.Ready) _ =>
    ClientWorld.closed_ready.step op (fun _ _ hp => hp) (fun _ _ _ h => h) h h)
    StreamCtx.ready_reset Runs.eachStep_true

/-! ## Frames behind the reply -/

namespace ClientWorld

/-- What is still to be received when `ssn_client_connect` returns. -/
def connectRest (w : ClientWorld κ) (timeoutMs : Option Nat) (run : ConnectRun) :
    List HandshakeRecv :=
  w.greeting.handshakeRest (maxRetries (timeoutMs.getD 3000)) run.recvs

theorem recv_greeting : w.greeting.client.recv = w.client.recv := by
  obtain ⟨v, hq, hv⟩ := greeting_quiet w
  rw [hv]
  exact hq.recv

/-- A connection that is made on a fresh receive context: `t` came with the reply. -/
theorem connect_spec (hready : w.client.recv.Ready) (hclean : w.client.recv.unread = [])
    {timeoutMs : Option Nat} {run : ConnectRun} (hup : ∀ r ∈ run.recvs, r.result.Up)
    {info : Frame} (hinfo : InfoReply info) {frames : List Frame}
    (hcut : stream run.recvs = info.bytes ++ (frames.map Frame.bytes).flatten)
    (hconn : (w.connect timeoutMs run).2 = true) :
    ∃ t, t ++ stream (w.connectRest timeoutMs run) = (frames.map Frame.bytes).flatten ∧
      arrived info.bytes.length run.recvs = info.bytes.length + t.length ∧
      (refParse t).2 = some (w.connect timeoutMs run).1.client.recv.unread ∧
      Listening (w.connect timeoutMs run).1 ∧
      ∀ r ∈ w.connectRest timeoutMs run, r.result.Up := by
  rw [← recv_greeting] at hready hclean
  have hfd : run.fd ≠ none := by
    intro hnone
    rw [connect, dial, hnone] at hconn
    cases hconn
  obtain ⟨fd, hfd⟩ := Option.ne_none_iff_exists'.1 hfd
  rw [connect_some hfd] at hconn ⊢
  dsimp only at hconn ⊢
  split_ifs at hconn ⊢ with hsent hok
  have hpos : 0 < info.bytes.length := Nat.lt_of_lt_of_le (by decide) (validate_le info.whole).1
  obtain ⟨t, ht, harrived, hleft, hready', -, hrest⟩ := handshake_spec hinfo frames _
    run.recvs hup hready (by rwa [hclean]) (by rw [hclean]; exact hcut) hok
  rw [hclean, List.length_nil, Nat.zero_add, Nat.sub_zero] at harrived
  exact ⟨t, ht, harrived, hleft, ⟨rfl, decide_eq_true (Int.natCast_nonneg fd), hready'⟩, hrest⟩

end ClientWorld

/-- The receive that completes the reply completes no other frame. -/
def ReplyLast (info : Frame) (frames : List Frame) (recvs : List HandshakeRecv) : Prop :=
  ∀ f ∈ frames.head?, arrived info.bytes.length recvs < info.bytes.length + f.bytes.length

instance (info : Frame) (frames : List Frame) (recvs : List HandshakeRecv) :
    Decidable (ReplyLast info frames recvs) :=
  inferInstanceAs (Decidable (∀ f ∈ frames.head?, _))

/-- A front part of a stream holds no frame if the first one is not complete in it. -/
theorem refFrames_front {frames : List Frame} {t q : Bytes}
    (h : t ++ q = (frames.map Frame.bytes).flatten) :
    refFrames t = [] ↔ ∀ f ∈ frames.head?, t.length < f.bytes.length := by
  cases frames with
  | nil =>
    obtain ⟨rfl, -⟩ := List.append_eq_nil_iff.1 h
    simp [refFrames_wait (show refNext [] = .wait by decide)]
  | cons f frames =>
    rw [List.map_cons, List.flatten_cons] at h
    simp only [List.head?_cons, Option.mem_def, Option.some.injEq, forall_eq']
    constructor
    · intro hnil
      by_contra hle
      obtain ⟨t', rfl⟩ : f.bytes <+: t :=
        List.prefix_of_prefix_length_le (List.prefix_append ..) (h ▸ List.prefix_append ..)
          (by omega)
      rw [refFrames_cons] at hnil
      cases hnil
    · intro hlt
      exact refFrames_wait (refNext_part h hlt)

/-- **Frames behind the handshake.** In every reachable state of a client with nothing left in its
receive context: if `ssn_client_connect` succeeds on a stream of the server's reply and any frames
behind it, cut into receives in any way, the polls on the rest dispatch these frames to
`ssn_client_input`, each of them once and in order, exactly when the receive that completes the
reply completes no other frame. -/
theorem dispatched_iff_replyLast [DecidableEq κ] (net : Nat → Nat → SendStep)
    (ops : List (ClientOp κ)) (timeoutMs : Option Nat) (run : ConnectRun)
    (hup : ∀ r ∈ run.recvs, r.result.Up) (info : Frame) (hinfo : InfoReply info)
    (frames : List Frame)
    (hcut : stream run.recvs = info.bytes ++ (frames.map Frame.bytes).flatten) :
    let w := Runs.run (ClientWorld.step net) ⟨.create, []⟩ ops
    let w' := (w.connect timeoutMs run).1
    w.client.recv.unread = [] → (w.connect timeoutMs run).2 = true →
      ((w'.pollAll (w.connectRest timeoutMs run)).inputs = w'.inputs ++ frames ↔
        ReplyLast info frames run.recvs) := by
  intro w w' hclean hconn
  obtain ⟨t, ht, harrived, hleft, hlisten, hrest⟩ :=
    ClientWorld.connect_spec (ready_run net ops) hclean hup hinfo hcut hconn
  -- The frames split into those that came with the reply and those for the polls.
  have hparse := refParse_frames frames
  have hframes : refFrames (t ++ stream (w.connectRest timeoutMs run)) = frames :=
    refFrames_ext (by rw [ht, hparse])
  rw [refFrames_append hleft] at hframes
  rw [← ht, refParse_append hleft] at hparse
  rw [ClientWorld.inputs_pollAll hrest hlisten (congrArg Prod.snd hparse),
    List.append_cancel_left_eq]
  have hlast : ReplyLast info frames run.recvs ↔ refFrames t = [] := by
    rw [refFrames_front ht, ReplyLast, harrived]
    simp only [Nat.add_lt_add_iff_left]
  rw [hlast]
  constructor
  · intro heq
    rw [heq] at hframes
    exact List.append_left_eq_self.1 hframes
  · intro hnil
    rwa [hnil, List.nil_append] at hframes

theorem validate_infoReply :
    validateAndGetTotalLength infoReply = some infoReply.length := by decide

def infoFrame : Frame := ⟨infoReply, validate_infoReply⟩

/-- A message that the server sends behind its reply. -/
def greetMessage : Frame := bareFrame MsgType.message 0

/-- A connection on which the reply and the message are received one by one. -/
def greetedApart : ConnectRun :=
  ⟨some 5, fun _ => .accepted headerSize,
    [⟨.data infoReply, false⟩, ⟨.data greetMessage.bytes, false⟩]⟩

/-- A connection on which they are received at once. -/
def greetedAtOnce : ConnectRun :=
  ⟨some 5, fun _ => .accepted headerSize, [⟨.data (infoReply ++ greetMessage.bytes), false⟩]⟩

theorem greetedApart_dispatched :
    let w : ClientWorld Nat := ⟨.create, []⟩
    let w' := (w.connect none greetedApart).1
    (w'.pollAll (w.connectRest none greetedApart)).inputs = w'.inputs ++ [greetMessage] := by
  have hup : ∀ r ∈ greetedApart.recvs, r.result.Up := by
    simp only [greetedApart, List.forall_mem_cons, List.not_mem_nil, false_imp_iff, implies_true]
    refine ⟨⟨?_, ?_⟩, ⟨?_, ?_⟩, trivial⟩ <;> decide +kernel
  exact (dispatched_iff_replyLast (fun _ _ => .failed) [] none greetedApart hup infoFrame
    (by decide +kernel) [greetMessage] (by decide +kernel) StreamCtx.unread_reset
    (by decide +kernel)).2 (by decide +kernel)

/-- The connection is made in both cases, and the client sees the message in one of them. -/
theorem greetedAtOnce_lost :
    let w : ClientWorld Nat := ⟨.create, []⟩
    (w.connect none greetedAtOnce).2 = true ∧
      ((w.connect none greetedAtOnce).1.pollAll (w.connectRest none greetedAtOnce)).inputs = [] ∧
      (w.connect none greetedApart).2 = true ∧
      ((w.connect none greetedApart).1.pollAll (w.connectRest none greetedApart)).inputs =
        [greetMessage] := by
  decide +kernel

end Ssn
