import SsnIpc.Client.Handshake
import SsnIpc.Server.Acks
import SsnIpc.System.Network

/-!
# The handshake between a client and a server

`ssn_client_connect` sends SERVICE_INFO and reads frames until one of them is a reply, from which it
takes its id (`cid`). The server gives ids to connections and puts the id of the connection into its
reply (`ssn_server_handle_service_info`).

**Theorem (`handshake_agrees`).** Whatever part of the bytes that the server has written on the
connection `id` the client receives, in whatever pieces: if `ssn_client_connect` succeeds, then
`cid` is `id`. And it succeeds if the server has dispatched a SERVICE_INFO frame of the connection,
all that the server has written arrives, and the tries suffice.

On the server's side, all replies to SERVICE_INFO on a connection carry its id (`Introduces`). On
the client's side, no frame of another kind ends the handshake, and the last reply that was read
before it ended decides (`cid_handshake`).
-/

namespace Ssn

open ByteMem HandshakeRecv

variable {κ β : Type*} {net : Nat → Nat → SendStep} {id id' : UInt32}

/-! ## The server -/

namespace World

variable {w : World β}

/-- A reply to SERVICE_INFO on the connection `id` carries the id. -/
def Introduces (id : UInt32) (msg : Message) : Prop :=
  msg.msgType = MsgType.serviceInfo →
    msg.status = 0 ∧ msg.data = some (Ref.ofBytes (toBe 4 id.toNat))

/-- All messages on the connection do. -/
def InfoOk (id : UInt32) (w : World β) : Prop := ∀ s ∈ w.sendsTo id, Introduces id s.1

theorem introduces_replyOf {f : Frame} {msg : Message} (h : w.replyOf true id f = some msg) :
    Introduces id msg := by
  intro htype
  have hf : getMsgType f = MsgType.serviceInfo :=
    (congrArg Prod.fst (tag_replyOf h)).symm.trans htype
  rw [replyOf, if_pos hf] at h
  obtain rfl := Option.some.inj h
  exact ⟨rfl, rfl⟩

theorem InfoOk.step (net : Nat → Nat → SendStep) (ht : w.TableOk) (h : w.InfoOk id)
    (op : ServerOp) : (w.step net op).InfoOk id := by
  have hresponse : MsgType.rpcRequest ≠ MsgType.serviceInfo := by decide
  refine sends_step net (Q := fun _ => Introduces id) (fun hq => hq)
    (fun _ hmsg => introduces_replyOf hmsg) (fun hmsg htype => ?_)
    (fun status seqno data _ htype => absurd htype hresponse) ht h
  rw [htype] at hmsg
  exact absurd hmsg (by decide)

end World

theorem infoOk_run (net : Nat → Nat → SendStep) (s : Server β) (ops : List ServerOp)
    (id : UInt32) : (Runs.run (World.step net) (World.init s) ops).InfoOk id :=
  World.run_keeps net (fun _ ho => absurd ho List.not_mem_nil) ops
    fun _ op ht hw => World.InfoOk.step net ht hw op

/-! ## The client -/

/-- If the frame is a reply to SERVICE_INFO, then it carries the id. -/
def Tells (id : UInt32) (f : Frame) : Prop :=
  InfoReply f → 4 ≤ f.data.length ∧ UInt32.ofNat (ofBe (f.data.take 4)) = id

theorem tells_of_reads {msg : Message} {f : Frame} (h : msg.Reads f)
    (hmsg : World.Introduces id msg) : Tells id f := by
  intro hinfo
  obtain ⟨htype, -, -, -, hdata⟩ := h
  obtain ⟨-, hid⟩ := hmsg (htype.symm.trans hinfo.1)
  have he : f.data = toBe 4 id.toNat := by
    rw [hdata, hid]
    rfl
  rw [he, List.take_of_length_le (Nat.le_of_eq (length_toBe 4 _)), length_toBe]
  refine ⟨Nat.le_refl 4, ?_⟩
  rw [ofBe_toBe id.toNat_lt]
  exact UInt32.ofNat_toNat

theorem infoReply_of_reads {msg : Message} {f : Frame} (h : msg.Reads f)
    (htype : msg.msgType = MsgType.serviceInfo) (hmsg : World.Introduces id msg) : InfoReply f := by
  obtain ⟨hf, hstatus, -, -, hdata⟩ := h
  obtain ⟨hzero, hid⟩ := hmsg htype
  refine ⟨hf.trans htype, hstatus.trans hzero, fun hnil => ?_⟩
  have hlen := congrArg List.length hdata
  rw [hnil, hid] at hlen
  have hfour : (optBytes (some (Ref.ofBytes (toBe 4 id.toNat)))).length = 4 := length_toBe 4 _
  rw [hfour] at hlen
  cases hlen

namespace ClientWorld

variable {w : ClientWorld κ}

theorem cid_foldl_connInput (fs : List Frame) (hfs : ∀ f ∈ fs, Tells id f)
    (arg : ClientWorld κ × Nat) (harg : 0 < arg.2 → arg.1.client.cid = some id)
    (hpos : 0 < (fs.foldl connInput arg).2) : (fs.foldl connInput arg).1.client.cid = some id := by
  induction fs generalizing arg with
  | nil => exact harg hpos
  | cons f fs ih =>
    rw [List.forall_mem_cons] at hfs
    refine ih hfs.2 (connInput arg f) (fun hcnt => ?_) hpos
    unfold connInput at hcnt ⊢
    dsimp only at hcnt ⊢
    split_ifs at hcnt ⊢ with hnot hfour
    · exact harg hcnt
    · simp only [not_or, not_not] at hnot
      have hinfo : InfoReply f := ⟨hnot.1, hnot.2.1, hnot.2.2⟩
      exact congrArg some (hfs.1 hinfo).2
    · simp only [not_or, not_not] at hnot
      have hinfo : InfoReply f := ⟨hnot.1, hnot.2.1, hnot.2.2⟩
      exact absurd (hfs.1 hinfo).1 hfour

theorem packetCnt_pos_of_mem {f : Frame} (hinfo : InfoReply f) {fs : List Frame} (hf : f ∈ fs)
    (arg : ClientWorld κ × Nat) : 0 < (fs.foldl connInput arg).2 := by
  obtain ⟨as, bs, rfl⟩ := List.append_of_mem hf
  rw [List.foldl_append]
  exact packetCnt_pos hinfo bs _

/-- Bytes in a handshake, as long as no header is invalid: the frames in them go to
`ssn_client_conn_input`, one after the other. -/
theorem feedConn_fold (buf : Bytes) (hready : w.client.recv.Ready) {r : Bytes}
    (hr : (refParse (w.client.recv.unread ++ buf)).2 = some r) :
    let out := (refFrames (w.client.recv.unread ++ buf)).foldl connInput (w.emit (.received buf), 0)
    ∃ w', w.feedConn buf = ((w', out.2), true) ∧ w'.client.recv.Ready ∧
      w'.client.recv.unread = r ∧ w'.client.cid = out.1.client.cid := by
  have hspec := streamFeed_accept connInput (w.emit (.received buf), 0) hready hr
  generalize hout : streamFeed (fun arg f => (connInput arg f, true)) w.client.recv buf
    (w.emit (.received buf), 0) = out at hspec
  have hfed : w.feedConn buf = ((out.2.1.1.setClient { out.2.1.1.client with recv := out.1 },
      out.2.1.2), out.2.2.ret) := by
    rw [← hout]
    rfl
  obtain ⟨h2, hready', hunread⟩ := hspec
  rw [h2] at hfed
  exact ⟨_, hfed, hready', hunread, rfl⟩

/-- **One try of a handshake.** The frames that it completes end the handshake if a reply is among
them; otherwise the next try goes on with the rest. -/
theorem handshake_try {r : HandshakeRecv} (hr : r.result.Up) (hready : w.client.recv.Ready)
    (retries : Nat) {recvs : List HandshakeRecv}
    (hparse : (refParse (w.client.recv.unread ++ stream (r :: recvs))).2 ≠ none) :
    ∃ (fs : List Frame) (arg : ClientWorld κ) (w' : ClientWorld κ), w'.client.recv.Ready ∧
      (refParse (w'.client.recv.unread ++ stream recvs)).2 ≠ none ∧
      refFrames (w.client.recv.unread ++ stream (r :: recvs)) =
        fs ++ refFrames (w'.client.recv.unread ++ stream recvs) ∧
      (refNext w.client.recv.unread = .wait → refNext w'.client.recv.unread = .wait) ∧
      if 0 < (fs.foldl connInput (arg, 0)).2 then
        (w.handshake (retries + 1) (r :: recvs)).2 = true ∧
          (w.handshake (retries + 1) (r :: recvs)).1.client.cid =
            (fs.foldl connInput (arg, 0)).1.client.cid
      else w.handshake (retries + 1) (r :: recvs) = w'.handshake retries recvs := by
  rw [stream_cons, ← List.append_assoc] at hparse ⊢
  rw [handshake]
  -- The try brings nothing, or bytes that are parsed behind what was left.
  obtain ⟨hres, hchunk⟩ | ⟨buf, hres, hchunk, hne, hlen⟩ := up_cases hr
  · rw [hchunk, List.append_nil] at hparse ⊢
    simp only [hres]
    exact ⟨[], w, w, hready, hparse, rfl, fun h => h, rfl⟩
  · rw [hchunk] at hparse ⊢
    simp only [hres, if_neg hne, List.take_of_length_le hlen]
    cases hleft : (refParse (w.client.recv.unread ++ buf)).2 with
    | none =>
      rw [refParse_append_none hleft] at hparse
      exact absurd hleft hparse
    | some l =>
      obtain ⟨w', hfed, hready', hunread, hcid⟩ := feedConn_fold buf hready hleft
      rw [refParse_append hleft, ← hunread] at hparse
      refine ⟨refFrames (w.client.recv.unread ++ buf), w.emit (.received buf), w', hready', hparse,
        ?_, fun _ => ?_, ?_⟩
      · rw [refFrames_append hleft, hunread]
      · rw [hunread]
        exact refNext_leftover hleft
      · simp only [hfed]
        split_ifs with hpos
        · exact ⟨rfl, hcid⟩
        · rfl

/-- **A handshake that succeeds has the id from a reply.** -/
theorem cid_handshake (retries : Nat) (recvs : List HandshakeRecv)
    (hup : ∀ r ∈ recvs, r.result.Up) (hready : w.client.recv.Ready)
    (hparse : (refParse (w.client.recv.unread ++ stream recvs)).2 ≠ none)
    (htells : ∀ f ∈ refFrames (w.client.recv.unread ++ stream recvs), Tells id f)
    (hok : (w.handshake retries recvs).2 = true) :
    (w.handshake retries recvs).1.client.cid = some id := by
  induction retries generalizing w recvs with
  | zero => cases hok
  | succ retries ih =>
    cases recvs with
    | nil => cases hok
    | cons r recvs =>
      obtain ⟨hr, hrest⟩ := List.forall_mem_cons.1 hup
      obtain ⟨fs, arg, w', hready', hparse', hframes, -, hcase⟩ :=
        handshake_try hr hready retries hparse
      rw [hframes, List.forall_mem_append] at htells
      split_ifs at hcase with hpos
      · exact hcase.2.trans (cid_foldl_connInput fs htells.1 (arg, 0)
          (fun h => absurd h (Nat.lt_irrefl 0)) hpos)
      · rw [hcase] at hok ⊢
        exact ih recvs hrest hready' hparse' htells.2 hok

/-- **A handshake succeeds** once a reply is among the frames received. -/
theorem handshake_succeeds (retries : Nat) (recvs : List HandshakeRecv)
    (hup : ∀ r ∈ recvs, r.result.Up) (hready : w.client.recv.Ready)
    (hwait : refNext w.client.recv.unread = .wait) (hlen : recvs.length ≤ retries)
    (hparse : (refParse (w.client.recv.unread ++ stream recvs)).2 ≠ none)
    (hinfo : ∃ f ∈ refFrames (w.client.recv.unread ++ stream recvs), InfoReply f) :
    (w.handshake retries recvs).2 = true := by
  induction recvs generalizing w retries with
  | nil =>
    obtain ⟨f, hf, -⟩ := hinfo
    rw [stream_nil, List.append_nil, refFrames_wait hwait] at hf
    cases hf
  | cons r recvs ih =>
    obtain ⟨retries, rfl⟩ : ∃ n, retries = n + 1 := Nat.exists_eq_succ_of_ne_zero fun h => by
      rw [h] at hlen
      cases hlen
    obtain ⟨hr, hrest⟩ := List.forall_mem_cons.1 hup
    obtain ⟨fs, arg, w', hready', hparse', hframes, hwait', hcase⟩ :=
      handshake_try hr hready retries hparse
    split_ifs at hcase with hpos
    · exact hcase.1
    · obtain ⟨f, hf, hreply⟩ := hinfo
      rw [hframes] at hf
      rcases List.mem_append.1 hf with hf | hf
      · exact absurd (packetCnt_pos_of_mem hreply hf _) hpos
      · rw [hcase]
        exact ih retries hrest hready' (hwait' hwait) (Nat.le_of_succ_le_succ hlen) hparse'
          ⟨f, hf, hreply⟩

end ClientWorld

/-! ## Both -/

theorem OneWire.refFrames {sends : List (Message × SendOut)} (h : OneWire sends) :
    (refParse (sentBytes sends)).2 ≠ none ∧
      List.Forall₂ Message.Reads (sentOk sends) (Ssn.refFrames (sentBytes sends)) := by
  obtain ⟨rest, hparse⟩ := h.wire.parse_written next_nil
  rw [written_attempts, wholes_attempts] at hparse
  refine ⟨fun hnone => ?_, forall₂_reads h.sendable ?_⟩
  · have hsome : (refParse (sentBytes sends)).2 = some rest := congrArg Prod.snd hparse
    rw [hnone] at hsome
    cases hsome
  · rw [map_bytes_refFrames]
    exact congrArg Prod.fst hparse

theorem OneWire.refFrames_part {sends : List (Message × SendOut)} (h : OneWire sends)
    {b : Bytes} (hb : b <+: sentBytes sends) :
    (refParse b).2 ≠ none ∧ ∀ f ∈ Ssn.refFrames b, ∃ msg ∈ sentOk sends, msg.Reads f := by
  obtain ⟨hparse, hreads⟩ := h.refFrames
  obtain ⟨t, ht⟩ := hb
  rw [← ht] at hparse hreads
  cases hleft : (refParse b).2 with
  | none =>
    rw [refParse_append_none hleft] at hparse
    exact absurd hleft hparse
  | some r =>
    refine ⟨Option.some_ne_none r, fun f hf => Lists.exists_of_forall₂ hreads ?_⟩
    rw [refFrames_append hleft]
    exact List.mem_append_left _ hf

/-- A SERVICE_INFO frame that was dispatched has been replied to. -/
theorem World.AcksOk.exists_reply {w : World β} (h : w.AcksOk id) {f : Frame}
    (hf : f ∈ (conn w.log id).frames) (htype : getMsgType f = MsgType.serviceInfo) :
    ∃ o ∈ w.sendsTo id, o.1.msgType = MsgType.serviceInfo := by
  have hdue : f.tag ∈ w.acksDue id := by
    refine List.mem_filter.2 ⟨List.mem_map_of_mem hf, ?_⟩
    show isAck (getMsgType f) = true
    rw [htype]
    rfl
  rw [← show w.acksSent id = w.acksDue id from h] at hdue
  obtain ⟨o, ho, htag⟩ := List.mem_map.1 (List.mem_filter.1 hdue).1
  exact ⟨o, ho, (congrArg Prod.fst htag).trans htype⟩

/-- **The handshake.** The server has come to any state by any steps, the client to any state with
an empty receive context, and the client receives some of what the server has written on the
connection `id`. If `ssn_client_connect` succeeds, the client has the id of its connection. It does
succeed if SERVICE_INFO goes out, the server has dispatched a SERVICE_INFO frame of the connection,
no send on it has failed, and all that was written arrives within the tries. -/
theorem handshake_agrees [DecidableEq κ] (snet cnet : Nat → Nat → SendStep) (s : Server β)
    (sops : List ServerOp) (cops : List (ClientOp κ)) (id : UInt32) (timeoutMs : Option Nat)
    (run : ConnectRun) (hup : ∀ r ∈ run.recvs, r.result.Up) :
    let server := Runs.run (World.step snet) (World.init s) sops
    let w := Runs.run (ClientWorld.step cnet) ⟨.create, []⟩ cops
    w.client.recv.unread = [] → stream run.recvs <+: sentBytes (server.sendsTo id) →
      ((w.connect timeoutMs run).2 = true → (w.connect timeoutMs run).1.client.cid = some id) ∧
      ((∃ fd ∈ run.fd, w.infoSent fd run.net = true) →
        (∃ f ∈ (conn server.log id).frames, getMsgType f = MsgType.serviceInfo) →
        (∀ o ∈ server.sendsTo id, o.2.ret = true) →
        stream run.recvs = sentBytes (server.sendsTo id) →
        run.recvs.length ≤ ClientWorld.maxRetries (timeoutMs.getD 3000) →
        (w.connect timeoutMs run).2 = true) := by
  intro server w hclean hrecv
  have hready : w.greeting.client.recv.Ready := by
    rw [ClientWorld.recv_greeting]
    exact ready_run cnet cops
  have hempty : w.greeting.client.recv.unread = [] := by
    rw [ClientWorld.recv_greeting]
    exact hclean
  have hinfo := infoOk_run snet s sops id
  have hwire := (serverWrites_run snet s sops id).wire
  obtain ⟨hparse, hsent⟩ := hwire.refFrames_part hrecv
  have hparse' : (refParse (w.greeting.client.recv.unread ++ stream run.recvs)).2 ≠ none := by
    rw [hempty]
    exact hparse
  refine ⟨fun hconn => ?_, fun ⟨fd, hfd, hout⟩ ⟨f, hf, htype⟩ hall hstream htries => ?_⟩
  · -- every reply among the frames received was sent by the server
    have htells : ∀ f ∈ refFrames (w.greeting.client.recv.unread ++ stream run.recvs),
        Tells id f := by
      rw [hempty]
      intro f hf
      obtain ⟨msg, hmsg, hreads⟩ := hsent f hf
      obtain ⟨o, ho, rfl⟩ := mem_of_mem_sentOk hmsg
      exact tells_of_reads hreads (hinfo o ho)
    have hfd : run.fd ≠ none := by
      intro hnone
      rw [ClientWorld.connect, ClientWorld.dial, hnone] at hconn
      cases hconn
    obtain ⟨fd, hfd⟩ := Option.ne_none_iff_exists'.1 hfd
    rw [ClientWorld.connect_some hfd] at hconn ⊢
    dsimp only at hconn ⊢
    split_ifs at hconn ⊢ with hgo hok
    exact ClientWorld.cid_handshake _ run.recvs hup hready hparse' htells hok
  · -- the reply to the frame is among what was received
    obtain ⟨o, ho, hinfoType⟩ := (acksOk_run snet s sops id).exists_reply hf htype
    have hmsg : o.1 ∈ sentOk (server.sendsTo id) := by
      rw [sentOk_of_all hall]
      exact List.mem_map_of_mem ho
    obtain ⟨g, hg, hreads⟩ := Lists.exists_of_forall₂ hwire.refFrames.2.flip hmsg
    have hok := ClientWorld.handshake_succeeds (ClientWorld.maxRetries (timeoutMs.getD 3000))
      run.recvs hup hready (by rw [hempty]; rfl) htries hparse' ⟨g, ?_, ?_⟩
    · rw [ClientWorld.connect_some hfd]
      dsimp only
      rw [if_pos hout, if_pos hok]
    · rw [hempty, List.nil_append, hstream]
      exact hg
    · exact infoReply_of_reads hreads hinfoType (hinfo o ho)

/-- A server with two connections, of which the second has greeted it. -/
def greetedSecond : List ServerOp :=
  [.newConnection 7, .newConnection 8, .clientInput 1 (.data (infoRequest.packet.take 5)),
    .clientInput 1 (.data (infoRequest.packet.drop 5))]

/-- The reply of the server comes in two pieces. -/
def greetedInPieces : ConnectRun :=
  ⟨some 5, fun _ => .accepted headerSize,
    [⟨.data (infoReply.take 3), false⟩, ⟨.again, false⟩, ⟨.data (infoReply.drop 3), false⟩]⟩

theorem handshake_second :
    let w : ClientWorld Nat := ⟨.create, []⟩
    (w.connect none greetedInPieces).2 = true ∧
      (w.connect none greetedInPieces).1.client.cid = some 1 := by
  have hup : ∀ r ∈ greetedInPieces.recvs, r.result.Up := by
    simp only [greetedInPieces, List.forall_mem_cons, List.not_mem_nil, false_imp_iff, implies_true]
    refine ⟨⟨?_, ?_⟩, trivial, ⟨?_, ?_⟩, trivial⟩ <;> decide +kernel
  have hall : stream greetedInPieces.recvs =
      sentBytes ((Runs.run (World.step acceptAll)
        (World.init (Server.create 0 : Server Unit)) greetedSecond).sendsTo 1) := by
    decide +kernel
  obtain ⟨hcid, hconn⟩ := handshake_agrees acceptAll acceptAll (Server.create 0 : Server Unit)
    greetedSecond ([] : List (ClientOp Nat)) 1 none greetedInPieces hup StreamCtx.unread_reset
    (hall ▸ List.prefix_refl _)
  have hok := hconn ⟨5, rfl, by decide +kernel⟩ (by decide +kernel) (by decide +kernel) hall
    (by decide +kernel)
  exact ⟨hok, hcid hok⟩

end Ssn
