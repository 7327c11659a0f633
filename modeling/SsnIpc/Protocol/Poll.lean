import SsnIpc.Frame.RoundTrip
import SsnIpc.Protocol.Deadlines

/-!
# Polling without a stream parser

The event steps of the protocol layer: `ssn_rpc_poll`, `ssn_pubsub_poll`, `ssn_msg_poll` and
`ssn_protocol_poll`, which picks one of them by the type of the context. Each receives once and
takes the one frame that `ssn_packet_input` finds at the front of the buffer. There is no buffer
from one poll to the next.

**Theorem (`polled_iff_whole`).** On the chunks of a stream of frames, the polls of a context take
the frames that the stream parser yields exactly when every chunk is one whole frame.

One direction is that a frame alone is taken as it is. For the other, what a poll takes is a
prefix of its chunk, so the lengths can only add up if nothing is left over anywhere
(`whole_of_length`).
-/

namespace Ssn

open ByteMem Framing

variable {κ : Type*}

/-! ## The model -/

inductive HandlerCall (κ : Type*)
  /-- `on_request` of a replier. -/
  | onRequest (k : κ) (seqno : UInt16) (method data : Ref)
  /-- `on_message` of a subscriber. -/
  | onTopic (k : κ) (topic data : Ref)
  /-- `on_message` of a message receiver. -/
  | onMessage (k : κ) (data : Ref)

/-- What can be seen of a context without requests in flight. -/
inductive ProtocolEvent (κ : Type*)
  /-- `ssn_packet_input` found a frame at the front of what was received. -/
  | input (frame : Frame)
  /-- A handler was called. -/
  | handled (call : HandlerCall κ)

/-- `ssn_protocol_ctx_t` with the handler of the context, if it has one, and its log. -/
structure ProtocolBase (κ : Type*) where
  transport : Option Transport
  handler : Option κ
  log : List (ProtocolEvent κ)

/-- The contexts by type and role. -/
inductive ProtocolCtx (κ : Type*)
  | req (w : RpcWorld κ)
  | rep (b : ProtocolBase κ)
  | pub (b : ProtocolBase κ)
  | sub (b : ProtocolBase κ)
  | send (b : ProtocolBase κ)
  | recv (b : ProtocolBase κ)

/-- The url of a frame as `ssn_get_url` returns it. -/
def urlRef (f : Frame) : Ref := (getUrl f).getD Ref.null

namespace ProtocolBase

def emit (b : ProtocolBase κ) (e : ProtocolEvent κ) : ProtocolBase κ :=
  { b with log := b.log ++ [e] }

/-- What the handle functions share: the handler is called for frames of its type. -/
def handle (msgType : UInt8) (call : κ → HandlerCall κ) (b : ProtocolBase κ) (f : Frame) :
    ProtocolBase κ × Int :=
  if getMsgType f ≠ msgType then (b, 0)
  else
    match b.handler with
    | none => (b, 0)
    | some k => (b.emit (.handled (call k)), 1)

/-- `ssn_rpc_handle_request`. -/
def rpcHandleRequest (b : ProtocolBase κ) (f : Frame) : ProtocolBase κ × Int :=
  b.handle MsgType.rpcRequest (fun k => .onRequest k (getSeqno f) (urlRef f) (dataRef f)) f

/-- `ssn_pubsub_handle_message`. -/
def pubsubHandleMessage (b : ProtocolBase κ) (f : Frame) : ProtocolBase κ × Int :=
  b.handle MsgType.publish (fun k => .onTopic k (urlRef f) (dataRef f)) f

/-- `ssn_msg_handle_data`. -/
def msgHandleData (b : ProtocolBase κ) (f : Frame) : ProtocolBase κ × Int :=
  b.handle MsgType.message (fun k => .onMessage k (dataRef f)) f

/-- What the polls share: one receive, and the frame goes to the handle function of the role, if
it has one. -/
def poll (dispatch : ProtocolBase κ → Frame → ProtocolBase κ) (b : ProtocolBase κ)
    (recv : RecvResult) : ProtocolBase κ × Int :=
  if b.transport.isNone then (b, -1)
  else
    match recvFrame recv with
    | .error ret => (b, ret)
    | .ok f => (dispatch (b.emit (.input f)) f, 1)

/-- `ssn_rpc_poll` on a replier. -/
def rpcPoll (b : ProtocolBase κ) (recv : RecvResult) : ProtocolBase κ × Int :=
  b.poll (fun b f => (b.rpcHandleRequest f).1) recv

/-- `ssn_pubsub_poll` on a subscriber. -/
def pubsubPoll (b : ProtocolBase κ) (recv : RecvResult) : ProtocolBase κ × Int :=
  b.poll (fun b f => (b.pubsubHandleMessage f).1) recv

/-- `ssn_msg_poll` on a receiver. -/
def msgPoll (b : ProtocolBase κ) (recv : RecvResult) : ProtocolBase κ × Int :=
  b.poll (fun b f => (b.msgHandleData f).1) recv

/-- `ssn_pubsub_poll` on a publisher and `ssn_msg_poll` on a sender: the frame is dropped. -/
def dropPoll (b : ProtocolBase κ) (recv : RecvResult) : ProtocolBase κ × Int :=
  b.poll (fun b _ => b) recv

end ProtocolBase

namespace ProtocolCtx

/-- `ssn_protocol_poll`. -/
def poll (now : Timespec) (recv : RecvResult) : ProtocolCtx κ → ProtocolCtx κ × Int
  | .req w => ((w.poll now recv).map ProtocolCtx.req id)
  | .rep b => ((b.rpcPoll recv).map ProtocolCtx.rep id)
  | .pub b => ((b.dropPoll recv).map ProtocolCtx.pub id)
  | .sub b => ((b.pubsubPoll recv).map ProtocolCtx.sub id)
  | .send b => ((b.dropPoll recv).map ProtocolCtx.send id)
  | .recv b => ((b.msgPoll recv).map ProtocolCtx.recv id)

def transport : ProtocolCtx κ → Option Transport
  | .req w => w.req.transport
  | .rep b | .pub b | .sub b | .send b | .recv b => b.transport

def rpcFrame : RpcEvent κ → Option Frame
  | .input f => some f
  | _ => none

def eventFrame : ProtocolEvent κ → Option Frame
  | .input f => some f
  | _ => none

/-- The frames a context has taken from its input so far. -/
def frames : ProtocolCtx κ → List Frame
  | .req w => w.log.filterMap rpcFrame
  | .rep b | .pub b | .sub b | .send b | .recv b => b.log.filterMap eventFrame

/-- One poll after another, each at a time and with a chunk it receives. -/
def pollAll (p : ProtocolCtx κ) (polls : List (Timespec × Bytes)) : ProtocolCtx κ :=
  polls.foldl (fun p a => (p.poll a.1 (.data a.2)).1) p

end ProtocolCtx

/-! ## What a poll takes -/

theorem recvFrame_data {buf : Bytes} (hb : buf ≠ []) (hlen : buf.length ≤ maxPacketSize) :
    recvFrame (.data buf) = (packetInput buf).elim (.error (-1)) .ok := by
  rw [recvFrame, if_neg hb, List.take_of_length_le hlen]
  cases packetInput buf <;> rfl

namespace ProtocolBase

theorem handle_keeps (msgType : UInt8) (call : κ → HandlerCall κ) (b : ProtocolBase κ)
    (f : Frame) :
    (b.handle msgType call f).1.transport = b.transport ∧
      (b.handle msgType call f).1.log.filterMap ProtocolCtx.eventFrame =
        b.log.filterMap ProtocolCtx.eventFrame := by
  unfold handle
  split_ifs
  · exact ⟨rfl, rfl⟩
  · cases b.handler with
    | none => exact ⟨rfl, rfl⟩
    | some k => exact ⟨rfl, by simp [emit, ProtocolCtx.eventFrame]⟩

theorem frames_poll {dispatch : ProtocolBase κ → Frame → ProtocolBase κ}
    (hd : ∀ b f, (dispatch b f).transport = b.transport ∧
      (dispatch b f).log.filterMap ProtocolCtx.eventFrame =
        b.log.filterMap ProtocolCtx.eventFrame)
    {b : ProtocolBase κ} (ht : b.transport.isSome) {buf : Bytes} (hb : buf ≠ [])
    (hlen : buf.length ≤ maxPacketSize) :
    (b.poll dispatch (.data buf)).1.transport = b.transport ∧
      (b.poll dispatch (.data buf)).1.log.filterMap ProtocolCtx.eventFrame =
        b.log.filterMap ProtocolCtx.eventFrame ++ (packetInput buf).toList := by
  have hnt : ¬ b.transport.isNone := by
    rw [Option.isNone_iff_eq_none]
    intro hn
    simp [hn] at ht
  rw [poll, if_neg hnt, recvFrame_data hb hlen]
  cases packetInput buf with
  | none => simp
  | some f =>
    obtain ⟨htr, hlog⟩ := hd (b.emit (.input f)) f
    exact ⟨htr, hlog.trans (by simp [emit, ProtocolCtx.eventFrame])⟩

end ProtocolBase

namespace RpcWorld

theorem rpcFrame_events (e : RpcPending κ) (out : UInt32 × Ref) :
    (e.events out).filterMap ProtocolCtx.rpcFrame = [] := by
  unfold RpcPending.events
  cases e.reply out <;> simp [ProtocolCtx.rpcFrame]

theorem frames_expire (w : RpcWorld κ) (now : Timespec) :
    (w.expire now).log.filterMap ProtocolCtx.rpcFrame =
      w.log.filterMap ProtocolCtx.rpcFrame := by
  have hnil : ((List.range rpcMaxPending).flatMap fun i =>
      (timeoutEvents now (w.req.pendingPool i)).filterMap ProtocolCtx.rpcFrame) = [] := by
    rw [List.flatMap_eq_nil_iff]
    intro i _
    unfold timeoutEvents
    split_ifs
    · exact rpcFrame_events ..
    · rfl
  rw [expire_eq]
  simp only [List.filterMap_append, List.filterMap_flatMap, hnil, List.append_nil]

theorem frames_handleReply (w : RpcWorld κ) (f : Frame) :
    (w.handleReply f).1.log.filterMap ProtocolCtx.rpcFrame =
      w.log.filterMap ProtocolCtx.rpcFrame := by
  unfold handleReply
  split_ifs
  · rfl
  · cases w.req.pendingPoolFind (getSeqno f) with
    | none => rfl
    | some i => simp [callback_eq, setReq, rpcFrame_events]

theorem frames_poll {w : RpcWorld κ} (ht : w.req.transport.isSome) (now : Timespec) {buf : Bytes}
    (hb : buf ≠ []) (hlen : buf.length ≤ maxPacketSize) :
    (w.poll now (.data buf)).1.log.filterMap ProtocolCtx.rpcFrame =
      w.log.filterMap ProtocolCtx.rpcFrame ++ (packetInput buf).toList := by
  rw [poll_eq ht, ← frames_expire w now, takeReply, recvFrame_data hb hlen]
  generalize w.expire now = v
  cases packetInput buf with
  | none => simp
  | some f =>
    have hin : (v.emit (.input f)).log.filterMap ProtocolCtx.rpcFrame =
        v.log.filterMap ProtocolCtx.rpcFrame ++ [f] := by simp [emit, ProtocolCtx.rpcFrame]
    rw [Option.elim_some]
    dsimp only
    split_ifs
    · exact hin
    · rw [frames_handleReply, hin]
      rfl

end RpcWorld

namespace ProtocolCtx

/-- **One poll.** Whatever the context, a poll takes the frame at the front of its chunk. -/
theorem frames_poll {p : ProtocolCtx κ} (ht : p.transport.isSome) (now : Timespec) {buf : Bytes}
    (hb : buf ≠ []) (hlen : buf.length ≤ maxPacketSize) :
    (p.poll now (.data buf)).1.transport = p.transport ∧
      (p.poll now (.data buf)).1.frames = p.frames ++ (packetInput buf).toList := by
  have hhandle := fun msgType (call : Frame → κ → HandlerCall κ) (b : ProtocolBase κ) f =>
    b.handle_keeps msgType (call f) f
  cases p with
  | req w => exact ⟨(RpcWorld.settings_poll w now _).1, RpcWorld.frames_poll ht now hb hlen⟩
  | rep b => exact ProtocolBase.frames_poll (hhandle _ _) ht hb hlen
  | pub b => exact ProtocolBase.frames_poll (fun _ _ => ⟨rfl, rfl⟩) ht hb hlen
  | sub b => exact ProtocolBase.frames_poll (hhandle _ _) ht hb hlen
  | send b => exact ProtocolBase.frames_poll (fun _ _ => ⟨rfl, rfl⟩) ht hb hlen
  | recv b => exact ProtocolBase.frames_poll (hhandle _ _) ht hb hlen

theorem frames_pollAll {p : ProtocolCtx κ} (ht : p.transport.isSome)
    {polls : List (Timespec × Bytes)}
    (hbufs : ∀ a ∈ polls, a.2 ≠ [] ∧ a.2.length ≤ maxPacketSize) :
    (p.pollAll polls).frames = p.frames ++ (polls.map Prod.snd).filterMap packetInput := by
  induction polls generalizing p with
  | nil => simp [pollAll]
  | cons a polls ih =>
    obtain ⟨⟨hb, hlen⟩, hrest⟩ := List.forall_mem_cons.1 hbufs
    obtain ⟨htr, hfr⟩ := frames_poll ht a.1 hb hlen
    have hih := ih (p := (p.poll a.1 (.data a.2)).1) (by rw [htr]; exact ht) hrest
    rw [pollAll, List.foldl_cons]
    rw [pollAll, hfr] at hih
    rw [hih, List.map_cons, List.append_assoc]
    cases hf : packetInput a.2 <;> simp [hf]

end ProtocolCtx

/-! ## Chunks and frames -/

theorem bytes_isPrefix_of_packetInput {buf : Bytes} {f : Frame} (h : packetInput buf = some f) :
    f.bytes <+: buf := by
  unfold packetInput at h
  split at h
  · cases h
  · split_ifs at h
    obtain rfl := Option.some.inj h
    exact List.take_prefix ..

theorem length_polled_le (bufs : List Bytes) :
    ((bufs.filterMap packetInput).map Frame.bytes).flatten.length ≤ bufs.flatten.length := by
  induction bufs with
  | nil => simp
  | cons b bufs ih =>
    cases hf : packetInput b with
    | none =>
      rw [List.filterMap_cons_none hf, List.flatten_cons, List.length_append]
      omega
    | some f =>
      have := (bytes_isPrefix_of_packetInput hf).length_le
      simp only [List.filterMap_cons_some hf, List.map_cons, List.flatten_cons,
        List.length_append] at ih ⊢
      omega

theorem whole_of_length {bufs : List Bytes} (hbufs : ∀ b ∈ bufs, b ≠ [])
    (h : bufs.flatten.length ≤
      ((bufs.filterMap packetInput).map Frame.bytes).flatten.length) :
    ∀ b ∈ bufs, ∃ f, packetInput b = some f ∧ f.bytes = b := by
  induction bufs with
  | nil => simp
  | cons b bufs ih =>
    obtain ⟨hb, hrest⟩ := List.forall_mem_cons.1 hbufs
    have hle := length_polled_le bufs
    rw [List.flatten_cons, List.length_append] at h
    rw [List.forall_mem_cons]
    cases hf : packetInput b with
    | none =>
      have hpos := List.length_pos_iff.2 hb
      rw [List.filterMap_cons_none hf] at h
      omega
    | some f =>
      have hpre := bytes_isPrefix_of_packetInput hf
      have hlen := hpre.length_le
      rw [List.filterMap_cons_some hf, List.map_cons, List.flatten_cons, List.length_append] at h
      refine ⟨⟨f, rfl, hpre.eq_of_length (by omega)⟩, ih hrest (by omega)⟩

theorem bytes_polled {bufs : List Bytes} (hall : ∀ b ∈ bufs, ∃ f : Frame, b = f.bytes) :
    (bufs.filterMap packetInput).map Frame.bytes = bufs := by
  induction bufs with
  | nil => rfl
  | cons b bufs ih =>
    obtain ⟨⟨f, rfl⟩, hrest⟩ := List.forall_mem_cons.1 hall
    rw [List.filterMap_cons_some (packetInput_bytes f), List.map_cons, ih hrest]

/-- A stream has one way to be cut into frames. -/
theorem frames_unique {fs gs : List Frame}
    (h : (fs.map Frame.bytes).flatten = (gs.map Frame.bytes).flatten) : fs = gs := by
  have hfs := refFrames_ext (congrArg Prod.fst (refParse_frames fs))
  have hgs := refFrames_ext (congrArg Prod.fst (refParse_frames gs))
  rw [← hfs, h, hgs]

/-- The stream parser yields the frames of a stream, however it is cut. -/
theorem feedChunks_frames (recv₀ : StreamCtx) {bufs : List Bytes} {frames : List Frame}
    (hcut : bufs.flatten = (frames.map Frame.bytes).flatten) :
    (feedChunks (fun fs f => (record fs f, true)) (streamInit recv₀) bufs []).2.1 = frames := by
  have hready : (streamInit recv₀).Ready := StreamCtx.ready_reset
  have hempty : (streamInit recv₀).unread = [] := StreamCtx.unread_reset
  have hparse : refParse ((streamInit recv₀).unread ++ bufs.flatten) =
      (frames.map Frame.bytes, some []) := by
    rw [hempty, List.nil_append, hcut, refParse_frames]
  have hrun := (feedChunks_accept record [] hready (congrArg Prod.snd hparse)).1
  rw [foldl_record, List.nil_append] at hrun
  rw [hrun]
  exact refFrames_ext (by rw [hparse])

/-- **Polls and the stream parser.** Take a stream of frames, cut into chunks that a receive can
return, and a connected context of any kind. Its polls take the frames that a fresh stream parser
yields on the same chunks exactly when every chunk is one whole frame. -/
theorem polled_iff_whole (p : ProtocolCtx κ) (hp : p.transport.isSome) (frames : List Frame)
    (polls : List (Timespec × Bytes))
    (hbufs : ∀ a ∈ polls, a.2 ≠ [] ∧ a.2.length ≤ maxPacketSize)
    (hcut : (polls.map Prod.snd).flatten = (frames.map Frame.bytes).flatten)
    (recv₀ : StreamCtx) :
    (p.pollAll polls).frames = p.frames ++ (feedChunks (fun fs f => (record fs f, true))
        (streamInit recv₀) (polls.map Prod.snd) []).2.1 ↔
      ∀ a ∈ polls, ∃ f : Frame, a.2 = f.bytes := by
  rw [feedChunks_frames recv₀ hcut, ProtocolCtx.frames_pollAll hp hbufs,
    List.append_cancel_left_eq]
  constructor
  · intro heq a ha
    have hne : ∀ b ∈ polls.map Prod.snd, b ≠ [] := by
      intro b hb
      obtain ⟨a, ha, rfl⟩ := List.mem_map.1 hb
      exact (hbufs a ha).1
    obtain ⟨f, -, hf⟩ := whole_of_length hne (Nat.le_of_eq (by rw [heq, hcut])) a.2
      (List.mem_map_of_mem ha)
    exact ⟨f, hf.symm⟩
  · intro hall
    have hbytes := bytes_polled (List.forall_mem_map.2 hall)
    exact frames_unique (by rw [hbytes, hcut])

/-- Connected contexts that nothing has happened to yet, one for each protocol. -/
def freshCtxs : List (ProtocolCtx Unit) :=
  [.req ⟨{ RpcReq.create (some ()) with transport := some ⟨3, 100⟩ }, []⟩,
    .sub ⟨some ⟨3, 100⟩, some (), []⟩, .recv ⟨some ⟨3, 100⟩, some (), []⟩]

def twoMessages : List Frame := [bareFrame MsgType.message 1, bareFrame MsgType.message 2]

/-- Polls that receive them one by one. -/
def pollsApart : List (Timespec × Bytes) :=
  twoMessages.map fun f => (.ofSec 0, f.bytes)

theorem polled_apart : freshCtxs.map (fun p => (p.pollAll pollsApart).frames) =
    freshCtxs.map (fun p => p.frames ++
      (feedChunks (fun fs f => (record fs f, true)) (streamInit ⟨0, 0, Mem.zero⟩)
        (pollsApart.map Prod.snd) []).2.1) := by
  have hconn : ∀ p ∈ freshCtxs, p.transport.isSome := by decide
  have hbufs : ∀ a ∈ pollsApart, a.2 ≠ [] ∧ a.2.length ≤ maxPacketSize := by decide +kernel
  have hcut : (pollsApart.map Prod.snd).flatten = (twoMessages.map Frame.bytes).flatten := rfl
  refine List.map_congr_left fun p hp => ?_
  refine (polled_iff_whole p (hconn p hp) twoMessages pollsApart hbufs hcut _).2 fun a ha => ?_
  obtain ⟨f, -, rfl⟩ := List.mem_map.1 ha
  exact ⟨f, rfl⟩

/-- In one chunk, the stream parser yields both and the polls take one. -/
theorem second_of_chunk_lost :
    freshCtxs.map (fun p =>
        (p.pollAll [(.ofSec 0, (twoMessages.map Frame.bytes).flatten)]).frames) =
      freshCtxs.map (fun _ => [bareFrame MsgType.message 1]) ∧
      (feedChunks (fun fs f => (record fs f, true)) (streamInit ⟨0, 0, Mem.zero⟩)
        [(twoMessages.map Frame.bytes).flatten] []).2.1 = twoMessages := by
  decide +kernel

end Ssn
