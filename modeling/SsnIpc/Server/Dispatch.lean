import SsnIpc.Frame.Connection
import SsnIpc.Lib.Runs
import SsnIpc.Server.Table

/-!
# Frames dispatched on a connection

`ssn_server_handle_client_input` does not look at the result of `ssn_stream_feed`. After an
invalid header the stream parser has dropped its buffer, and the server goes on with whatever it
receives next, as if a frame started there.

**Theorem (`dispatch_iff_noLateFrame`).** For a byte stream `s`, every run in which `s` arrives on
a connection dispatches the frames of the reference parser and nothing else, exactly when `s` has
no invalid header at a frame boundary or no complete frame starts anywhere behind that header.

Along every run a connection is a framer that starts over (`Framer.emitted`) on the chunks
received (`connOk_step`), and every cut of every stream is received in some run
(`exists_run_chunks`). The rest is `Framer.emitted_iff`.
-/

namespace Ssn

open ByteMem Framing

variable {β : Type*} {net : Nat → Nat → SendStep} {w : World β} {id id' : UInt32}

/-! ## Connections in the log -/

/-- What an entry of the log says of the connection `id`. -/
def Conn.event (id : UInt32) (c : Conn) : ServerEvent β → Conn
  | .accepted id' => if id' = id then .fresh else c
  | .received id' buf => if id' = id then { c with chunks := c.chunks ++ [buf] } else c
  | .input id' f => if id' = id then { c with frames := c.frames ++ [f] } else c
  | _ => c

/-- The connection `id`, from when it was accepted last. -/
def conn (log : List (ServerEvent β)) (id : UInt32) : Conn := log.foldl (Conn.event id) .fresh

theorem conn_append (log es : List (ServerEvent β)) (id : UInt32) :
    conn (log ++ es) id = es.foldl (Conn.event id) (conn log id) :=
  List.foldl_append

theorem foldl_event_minor {es : List (ServerEvent β)} (h : ∀ e ∈ es, World.Minor e) (c : Conn) :
    es.foldl (Conn.event id) c = c := by
  refine Runs.run_fixed fun e he => ?_
  have hm := h e he
  cases e <;> first | exact hm.elim | rfl

theorem World.Grows.conn_eq {w' : World β} (h : World.Grows World.Minor w w') (id : UInt32) :
    conn w'.log id = conn w.log id := by
  obtain ⟨es, he, hm⟩ := h
  rw [he, conn_append, foldl_event_minor hm]

theorem conn_input (f : Frame) : conn (w.input net id f).log id' =
    (conn w.log id').event id' (.input id f : ServerEvent β) := by
  obtain ⟨es, he, hm⟩ := World.log_input net w id f
  rw [he, conn_append, List.foldl_cons, foldl_event_minor fun e h => (hm e h).minor]

theorem conn_foldl_input (frames : List Frame) :
    conn (frames.foldl (World.input net id) w).log id' =
      if id' = id then ⟨(conn w.log id').chunks, (conn w.log id').frames ++ frames⟩
      else conn w.log id' := by
  induction frames generalizing w with
  | nil => simp
  | cons f frames ih =>
    rw [List.foldl_cons, ih, conn_input, Conn.event]
    by_cases e : id' = id
    · simp [e]
    · simp [e, Ne.symm e]

theorem conn_takeChunk (buf : Bytes) (frames : List Frame) (recv : StreamCtx) :
    conn (w.takeChunk net id buf frames recv).log id' =
      if id' = id then ⟨(conn w.log id').chunks ++ [buf], (conn w.log id').frames ++ frames⟩
      else conn w.log id' := by
  rw [World.takeChunk, World.log_modifyCli, conn_foldl_input, World.log_emit, conn_append]
  by_cases e : id' = id
  · simp [e, Conn.event]
  · simp [e, Ne.symm e, Conn.event]

/-! ## A connection is a framer that starts over -/

namespace World

/-- The bytes a client's stream parser holds. -/
def unreadOf (c : Client) : Bytes := c.recv.unread

theorem view_unreadOf :
    w.view unreadOf id = (w.view Client.core id).map fun c => c.recv.unread := by
  rw [view, view, Option.map_map]
  rfl

theorem view_unreadOf_congr {w' : World β} (h : w'.view Client.core = w.view Client.core) :
    w'.view unreadOf = w.view unreadOf := by
  funext id
  rw [view_unreadOf, view_unreadOf, h]

theorem unreadOf_input (f : Frame) : (w.input net id f).view unreadOf = w.view unreadOf := by
  funext id'
  rw [view_unreadOf, view_unreadOf, core_input]
  by_cases e : id' = id
  · subst e
    rw [Function.update_self, Option.map_map]
    congr 1
    funext c
    rw [Function.comp_apply, recv_after]
  · rw [Function.update_of_ne e]

theorem unreadOf_foldl_input (frames : List Frame) :
    (frames.foldl (input net id) w).view unreadOf = w.view unreadOf := by
  induction frames generalizing w with
  | nil => rfl
  | cons f frames ih => rw [List.foldl_cons, ih, unreadOf_input]

theorem unreadOf_takeChunk {buf : Bytes} {frames : List Frame} {recv : StreamCtx} :
    (w.takeChunk net id buf frames recv).view unreadOf =
      Function.update (w.view unreadOf) id ((w.view unreadOf id).map fun _ => recv.unread) := by
  rw [takeChunk, view_modifyCli (f := fun c => { c with recv }) _ fun _ => rfl,
    unreadOf_foldl_input, view_emit]
  congr 1
  have hsame : (frames.foldl (input net id) (w.emit (.received id buf))).view unreadOf id =
      w.view unreadOf id := by
    rw [unreadOf_foldl_input, view_emit]
  rw [← hsame, view, Option.map_map]
  rfl

/-- Every connection dispatches what it should, and its stream parser holds what it should. -/
structure ConnOk (w : World β) : Prop where
  follows : ∀ id, (conn w.log id).Follows
  held : ∀ id, ∀ u ∈ w.view unreadOf id, u = (conn w.log id).held

theorem ConnOk.of_minor {w' : World β} (h : w.ConnOk) (hlog : Grows Minor w w')
    (hv : ∀ id, ∀ u ∈ w'.view unreadOf id, u ∈ w.view unreadOf id) : w'.ConnOk where
  follows id := by
    rw [hlog.conn_eq]
    exact h.follows id
  held id u hu := by
    rw [hlog.conn_eq]
    exact h.held id u (hv id u hu)

theorem ConnOk.addClient (h : w.ConnOk) (ncid : UInt32) (fd : Int) :
    (w.addClient id ncid fd).ConnOk := by
  have hconn (id' : UInt32) : conn (w.addClient id ncid fd).log id' =
      if id = id' then .fresh else conn w.log id' :=
    conn_append w.log [.accepted id] id'
  refine ⟨fun id' => ?_, fun id' u hu => ?_⟩ <;> rw [hconn] <;> split_ifs with e
  · exact Conn.follows_fresh
  · exact h.follows id'
  · subst e
    rw [view_addClient, Function.update_self] at hu
    obtain rfl := Option.some.inj hu
    exact StreamCtx.unread_reset
  · rw [view_addClient, Function.update_of_ne (Ne.symm e)] at hu
    exact h.held id' u hu

theorem ConnOk.takeChunk {cli : Client} {buf : Bytes} {recv : StreamCtx} (h : w.ConnOk)
    (hcli : w.server.cliFind cli.id = some cli) (hbuf : buf ≠ [] ∧ buf.length ≤ maxPacketSize)
    (hunread : recv.unread = turnLeft true (refParse (cli.recv.unread ++ buf)).2) :
    (w.takeChunk net cli.id buf (refFrames (cli.recv.unread ++ buf)) recv).ConnOk := by
  have hheld : cli.recv.unread = (conn w.log cli.id).held :=
    h.held cli.id _ (by rw [view, hcli]; rfl)
  rw [hheld] at hunread ⊢
  refine ⟨fun id => ?_, fun id u hu => ?_⟩
  · rw [conn_takeChunk]
    split_ifs with e
    · subst e
      exact (h.follows _).take hbuf
    · exact h.follows id
  · rw [conn_takeChunk]
    rw [unreadOf_takeChunk] at hu
    by_cases e : id = cli.id
    · subst e
      rw [Function.update_self] at hu
      obtain ⟨-, -, rfl⟩ := Option.map_eq_some_iff.1 hu
      rw [if_pos rfl, hunread]
      exact (Conn.held_take _ _).symm
    · rw [Function.update_of_ne e] at hu
      rw [if_neg e]
      exact h.held id u hu

theorem connOk_step (h : w.TableOk) (hw : w.ConnOk) (op : ServerOp) : (w.step net op).ConnOk := by
  refine step_invariant_chunk h hw (fun w' hq => ?_) (fun id ncid fd _ => hw.addClient ncid fd)
    (fun cli buf recv hcli hne hle _ hunread => hw.takeChunk hcli ⟨hne, hle⟩ hunread)
    (fun cli _ => ?_) fun _ => ?_
  · refine hw.of_minor (hq.log.mono fun _ hs => hs.plain.minor) fun id u hu => ?_
    rwa [view_unreadOf_congr hq.core] at hu
  · refine hw.of_minor (grows_closeClient cli) fun id u hu => ?_
    rw [view_closeClient] at hu
    exact mem_update_none hu
  · refine event_invariant (fun hw => ⟨hw.follows, hw.held⟩) (fun w id hw => ?_) hw
    refine hw.of_minor ((Grows.of_eq rfl).emit trivial) fun id' u hu => ?_
    rw [view_cliDestroy] at hu
    exact mem_update_none hu

/-- The table and the connections are as they should be. -/
structure ConnInv (w : World β) : Prop where
  table : w.TableOk
  conns : w.ConnOk

end World

theorem connInv_run (net : Nat → Nat → SendStep) (s : Server β) (ops : List ServerOp) :
    (Runs.run (World.step net) (World.init s) ops).ConnInv := by
  refine Runs.run_invariant (fun w op hw _ => ?_) ⟨World.tableOk_init s, ?_⟩ Runs.eachStep_true
  · exact ⟨World.tableOk_step net hw.table op, World.connOk_step hw.table hw.conns op⟩
  · exact ⟨fun _ => Conn.follows_fresh, fun _ _ hu => by cases hu⟩

/-! ## Every cut is received in some run -/

namespace World

/-- The connection of the client `id` is open. -/
def Opened (w : World β) (id : UInt32) : Prop :=
  ∀ t ∈ w.view Client.transport id, ¬ t.sockFd < 0

/-- Nothing happens to an open connection when a message is sent that can be sent. -/
theorem transport_cliSendmsg {msg : Message} {h : Header} (ho : w.Opened id)
    (hh : HeaderReady w.server.sendbuf h msg.url msg.data) (hs : Sendable msg.url msg.data) :
    (w.cliSendmsg acceptAll id msg).view Client.transport = w.view Client.transport := by
  cases hc : w.server.cliFind id with
  | none => rw [cliSendmsg_none _ _ hc]
  | some c =>
    have ht : ¬ c.transport.sockFd < 0 := ho c.transport (by rw [view, hc]; rfl)
    have hret := (sendMessage_ret_iff c.transport (acceptAll w.log.length) hh).2
      ⟨ht, hs, delivers_acceptAll _ _ hs.total⟩
    simp only [cliSendmsg, hc, view_emit]
    refine (view_modifyCli_same _ (id_afterSend _) fun c' => ?_).trans rfl
    rw [afterSend, if_pos hret]

theorem sendable_replyTo {f : Frame} {status : UInt32} {data : Option Ref}
    (hd : ∀ d ∈ data, d.NoDangle) (hlen : optLen data ≤ 4) :
    Sendable (replyTo f status data).url (replyTo f status data).data := by
  refine ⟨by simp [replyTo, optLen], by simp [replyTo], hd, ?_⟩
  have hurl : optLen (replyTo f status data).url = 0 := rfl
  have hdata : optLen (replyTo f status data).data = optLen data := rfl
  rw [hurl, hdata]
  simp only [headerSize, maxPacketSize]
  omega

theorem transport_reply {f : Frame} {status : UInt32} (ho : w.Opened id) :
    (w.send acceptAll id (replyTo f status none)).view Client.transport = w.view Client.transport :=
  transport_cliSendmsg (w := w.createHeader _) ho (headerReady_createHeader ..)
    (sendable_replyTo (by simp) (by simp [optLen]))

theorem transport_reply_of {w' : World β} {f : Frame} {status : UInt32} (ho : w.Opened id)
    (hv : w'.view Client.transport = w.view Client.transport) :
    (w'.send acceptAll id (replyTo f status none)).view Client.transport =
      w.view Client.transport := by
  rw [transport_reply, hv]
  intro t ht
  rw [hv] at ht
  exact ho t ht

theorem transport_replyServiceInfo {f : Frame} (ho : w.Opened id) :
    (w.replyServiceInfo acceptAll id f).view Client.transport = w.view Client.transport := by
  have hidle (keepalive : Int) (c : Client) : (startIdle keepalive c).transport = c.transport := by
    unfold startIdle
    split_ifs <;> rfl
  have hview (msg : Message) (keepalive : Int) :
      ((w.createHeader msg).modifyCli id (startIdle keepalive)).view Client.transport =
        w.view Client.transport :=
    view_modifyCli_same _ (id_startIdle _) (hidle keepalive)
  unfold replyServiceInfo
  simp only
  rw [transport_cliSendmsg _ (headerReady_createHeader ..), hview]
  · exact sendable_replyTo (by simp [Ref.NoDangle, Ref.ofBytes]) (by simp [optLen, Ref.ofBytes])
  · intro t ht
    rw [hview] at ht
    exact ho t ht

theorem transport_dispatch {f : Frame} (ho : w.Opened id) :
    (w.dispatch acceptAll id f).view Client.transport = w.view Client.transport := by
  by_cases hf : getMsgType f = MsgType.serviceInfo
  · rw [dispatch_serviceInfo hf, view_noteConnected fun _ => rfl, transport_replyServiceInfo ho]
  · apply dispatch_plain (P := fun w' => w'.view Client.transport = w.view Client.transport) hf
    · rfl
    · rfl
    · exact fun _ _ _ => rfl
    · exact fun _ => transport_reply ho
    · intro subs status
      refine transport_reply_of ho ?_
      exact view_modifyCli_same _ (fun _ => rfl) fun _ => rfl

theorem transport_input {f : Frame} (ho : w.Opened id) :
    (w.input acceptAll id f).view Client.transport = w.view Client.transport := by
  have htouch : ((w.emit (.input id f)).touch id).view Client.transport =
      w.view Client.transport :=
    view_modifyCli_same _ (fun _ => rfl) fun _ => rfl
  rw [input_eq, transport_dispatch, htouch]
  intro t ht
  rw [htouch] at ht
  exact ho t ht

theorem transport_takeChunk {buf : Bytes} {frames : List Frame} {recv : StreamCtx}
    (ho : w.Opened id) :
    (w.takeChunk acceptAll id buf frames recv).view Client.transport = w.view Client.transport := by
  have hframes (w' : World β) (ho : w'.Opened id) :
      (frames.foldl (input acceptAll id) w').view Client.transport = w'.view Client.transport := by
    induction frames generalizing w' with
    | nil => rfl
    | cons f frames ih =>
      rw [List.foldl_cons, ih, transport_input ho]
      intro t ht
      rw [transport_input ho] at ht
      exact ho t ht
  rw [takeChunk]
  refine (view_modifyCli_same (f := fun c => { c with recv }) _ (fun _ => rfl)
    fun _ => rfl).trans ?_
  exact hframes (w.emit _) ho

/-- Chunks that arrive on an open connection are received one by one. -/
theorem chunks_run {bs : List Bytes} (h : w.TableOk) {t : Transport}
    (hv : w.view Client.transport id = some t) (ht : ¬ t.sockFd < 0)
    (hbs : ∀ b ∈ bs, b ≠ [] ∧ b.length ≤ maxPacketSize) :
    (conn (Runs.run (step acceptAll) w (bs.map fun b => .clientInput id (.data b))).log id).chunks =
      (conn w.log id).chunks ++ bs := by
  induction bs generalizing w with
  | nil => simp
  | cons b bs ih =>
    rw [List.forall_mem_cons] at hbs
    obtain ⟨cli, hcli, rfl⟩ := Option.map_eq_some_iff.1 hv
    have ho : w.Opened id := fun t' ht' => by
      rw [hv] at ht'
      obtain rfl := Option.some.inj ht'
      exact ht
    obtain ⟨recv, -, -, hchunk⟩ := handleClientInput_data acceptAll h hcli ht hbs.1.1
    rw [List.take_of_length_le hbs.1.2] at hchunk
    have hstep : w.step acceptAll (.clientInput id (.data b)) = _ := hchunk
    rw [List.map_cons, Runs.run_cons, ih (tableOk_step _ h _) _ hbs.2, hstep, conn_takeChunk,
      if_pos rfl,
      List.append_assoc]
    · rfl
    · rw [hstep, transport_takeChunk ho, hv]

end World

theorem handleNewConnection_create (fd : Int) :
    (World.init (Server.create 0 : Server β)).handleNewConnection fd =
      (World.init (Server.create 0 : Server β)).addClient 0 1 fd := by
  have hclients : (World.init (Server.create 0 : Server β)).server.clients = [] := rfl
  have hnewid : (World.init (Server.create 0 : Server β)).server.cliNewid (2 ^ 32) 0 =
      some (0, 1) := by
    rw [show 2 ^ 32 = 4294967295 + 1 from rfl, Server.cliNewid]
    rfl
  have hncid : (World.init (Server.create 0 : Server β)).server.ncid = 0 := rfl
  have hmax : ¬ (World.init (Server.create 0 : Server β)).server.maxConnections.toNat ≤
      (World.init (Server.create 0 : Server β)).server.clients.length := by
    rw [hclients]
    exact (by decide : ¬ (1020 : UInt32).toNat ≤ 0)
  rw [World.handleNewConnection, if_neg hmax, hncid, hnewid]

/-- Every cut of every stream arrives in some run. -/
theorem exists_run_chunks {bs : List Bytes} (hbs : ∀ b ∈ bs, b ≠ [] ∧ b.length ≤ maxPacketSize) :
    ∃ ops : List ServerOp, (conn (Runs.run (World.step acceptAll)
      (World.init (Server.create 0 : Server β)) ops).log 0).chunks = bs := by
  refine ⟨.newConnection 5 :: bs.map fun b => .clientInput 0 (.data b), ?_⟩
  have hstep : (World.init (Server.create 0 : Server β)).step acceptAll (.newConnection 5) =
      (World.init (Server.create 0 : Server β)).addClient 0 1 5 := handleNewConnection_create 5
  have htable : ((World.init (Server.create 0 : Server β)).addClient 0 1 5).TableOk :=
    (World.tableOk_init _).addClient rfl 1 5
  rw [Runs.run_cons, hstep]
  refine (World.chunks_run htable (t := ⟨5, 100⟩) ?_ (by decide) hbs).trans (List.nil_append _)
  rw [World.view_addClient, Function.update_self]
  rfl

/-! ## When the cut does not matter -/

theorem refNext_short (s : Bytes) (h : s.length < headerSize) : refNext s = .wait := by
  rw [refNext, if_pos h]

theorem refNext_header (s : Bytes) (h : refNext s = .reject) :
    headerSize ≤ s.length ∧ refNext (s.take headerSize) = .reject := by
  obtain ⟨hlen, hnone⟩ := refNext_reject.1 h
  refine ⟨hlen, refNext_reject.2 ⟨by rw [List.length_take]; omega, ?_⟩⟩
  rw [validate_take hlen (Nat.le_refl _), hnone]

/-- **Frames are dispatched as received unless a frame hides behind an invalid header.** For a
byte stream `s`: on every connection of every run on which `s` arrived, in whatever pieces, the
frames dispatched are those of the reference parser, which stops at an invalid header for good,
exactly when `s` is not rejected or no complete frame starts anywhere behind the header where it
is. -/
theorem dispatch_iff_noLateFrame (β : Type*) (s : Bytes) :
    (∀ (net : Nat → Nat → SendStep) (server : Server β) (ops : List ServerOp) (id : UInt32),
      (conn (Runs.run (World.step net) (World.init server) ops).log id).stream = s →
      (conn (Runs.run (World.step net) (World.init server) ops).log id).frames = refFrames s) ↔
    ((refParse s).2 = none →
      ∀ p n, (refParse s).1.flatten.length + headerSize ≤ p → refNext (s.drop p) ≠ .emit n) := by
  refine Iff.trans ?_ (Framer.emitted_iff (F := packetFramer) (fun _ => length_lt_of_wait)
    refNext_short refNext_header (by decide) s)
  constructor
  · rintro h bs ⟨hflat, hbs⟩
    obtain ⟨ops, hops⟩ : ∃ ops, (conn (Runs.run (World.step acceptAll)
        (World.init (Server.create 0 : Server β)) ops).log 0).chunks = bs := exists_run_chunks hbs
    have hconn := ((connInv_run acceptAll (Server.create 0 : Server β) ops).conns.follows 0).frames
    have hframes := h acceptAll (Server.create 0) ops 0 (by rw [Conn.stream, hops, hflat])
    rw [hframes, hops, map_bytes_refFrames] at hconn
    exact hconn.symm
  · intro h net server ops id hs
    have hconn := (connInv_run net server ops).conns.follows id
    have hcut := h _ ⟨hs, hconn.chunk⟩
    exact (refFrames_ext (by rw [hconn.frames, hcut, refParse])).symm

/-- Fifteen zero bytes, which are no header, and a complete PING behind them. -/
def hiddenPing : Bytes := List.replicate 15 0 ++ packet MsgType.pingEcho 0 7 none none

/-- A fresh server with one connection, on which the chunks arrive. -/
def receiveAll (bs : List Bytes) : World Unit :=
  Runs.run (World.step acceptAll) (World.init (Server.create 0))
    (.newConnection 5 :: bs.map fun b => .clientInput 0 (.data b))

/-- Received at once the PING is dropped with the invalid header; received on its own it is
dispatched. -/
theorem hiddenPing_dispatched :
    (conn (receiveAll [hiddenPing]).log 0).stream =
        (conn (receiveAll [hiddenPing.take 15, hiddenPing.drop 15]).log 0).stream ∧
      (conn (receiveAll [hiddenPing]).log 0).frames = [] ∧
      (conn (receiveAll [hiddenPing.take 15, hiddenPing.drop 15]).log 0).frames ≠ [] := by
  refine ⟨by decide +kernel, ?_, ?_⟩
  · exact List.eq_nil_of_length_eq_zero (by decide +kernel)
  · exact List.ne_nil_of_length_pos (by decide +kernel)

end Ssn
