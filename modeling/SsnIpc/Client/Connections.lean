import SsnIpc.Client.Steps
import SsnIpc.Frame.Connection
import SsnIpc.Lib.Runs

/-!
# Consecutive connections of a client

A client keeps one receive context (`recv`) for all its connections. It is set up when the client
is created and not when a connection is made, as the server does; so what the last connection left
in it stands before the bytes of the next one.

**Theorem (`framesFresh_of_clean`).** In a run that makes connections only while nothing is left
in the receive context, the frames of every connection are those of a fresh context on the bytes
of that connection.

The invariant is `InStep`: the receive context holds what a fresh one would.
-/

namespace Ssn

open ByteMem

variable {κ : Type*} {net : Nat → Nat → SendStep} {w w' : ClientWorld κ}

/-! ## The connection in use -/

def Conn.note (c : Conn) (f : Frame) : Conn := { c with frames := record c.frames f }

theorem Conn.foldl_note (c : Conn) (fs : List Frame) :
    fs.foldl note c = { c with frames := c.frames ++ fs } := by
  induction fs generalizing c with
  | nil => simp
  | cons f fs ih => simp [ih, note, record]

/-- What an event means for the connection in use. -/
def ClientEvent.track (c : Conn) : ClientEvent κ → Conn
  | .opened => .fresh
  | .received buf => { c with chunks := c.chunks ++ [buf] }
  | .connInput f => c.note f
  | .input f => c.note f
  | _ => c

theorem ClientEvent.foldl_track_minor {es : List (ClientEvent κ)} (h : ∀ e ∈ es, e.Minor)
    (c : Conn) : es.foldl track c = c := by
  refine Runs.run_fixed fun e he => ?_
  have hm := h e he
  cases e <;> first | exact hm.elim | rfl

namespace ClientWorld

/-- What was received on the last connection made, and the frames that were passed to
`ssn_client_conn_input` and `ssn_client_input` since. -/
def conn (w : ClientWorld κ) : Conn := w.log.foldl ClientEvent.track .fresh

@[simp] theorem conn_emit (e : ClientEvent κ) : (w.emit e).conn = e.track w.conn := by
  simp [conn, emit]

theorem Quiet.conn (h : Quiet w w') : w'.conn = w.conn := by
  obtain ⟨es, hes, hm⟩ := h.log
  rw [ClientWorld.conn, hes, List.foldl_append]
  exact ClientEvent.foldl_track_minor hm _

theorem conn_input (f : Frame) : (w.input f).conn = w.conn.note f := by
  rw [(quiet_input f).conn, conn_emit]
  rfl

theorem conn_connInput (arg : ClientWorld κ × Nat) (f : Frame) :
    (connInput arg f).1.conn = arg.1.conn.note f := by
  rw [(quiet_connInput arg.2 f).conn, conn_emit]
  rfl

/-! ## The receive context -/

/-- The receive context is as if it had been fresh when the connection was made. -/
structure InStep (w : ClientWorld κ) : Prop where
  ready : w.client.recv.Ready
  follows : w.conn.Follows
  unread : w.client.recv.unread = w.conn.held

/-- A chunk through the stream parser, for a callback `g` that notes each frame in the client
`π` of its argument. -/
theorem InStep.feed {σ : Type*} {g : σ → Frame → σ} {π : σ → ClientWorld κ}
    (hg : ∀ arg f, (π (g arg f)).conn = (π arg).conn.note f) (h : InStep w) {buf : Bytes}
    (hbuf : buf ≠ [] ∧ buf.length ≤ maxPacketSize) {arg : σ} (harg : π arg = w.emit (.received buf))
    {out : StreamCtx × σ × FeedEnd}
    (hout : streamFeed (fun arg f => (g arg f, true)) w.client.recv buf arg = out) :
    InStep ((π out.2.1).setClient { (π out.2.1).client with recv := out.1 }) := by
  obtain ⟨harg', -, hready, hunread⟩ := hout ▸ streamFeed_spec _ _ buf arg h.ready
  rw [deliver_always] at harg' hunread
  have hfold (fs : List Frame) (arg : σ) :
      (π (fs.foldl g arg)).conn = fs.foldl .note (π arg).conn := by
    induction fs generalizing arg with
    | nil => rfl
    | cons f fs ih => rw [List.foldl_cons, ih, hg, List.foldl_cons]
  have hconn : (π out.2.1).conn = w.conn.take buf := by
    rw [harg', hfold, harg, conn_emit, Conn.foldl_note, h.unread]
    rfl
  refine ⟨hready, ?_, ?_⟩
  · exact hconn ▸ h.follows.take hbuf
  · exact hunread.trans (by rw [h.unread, ← Conn.held_take, ← hconn]; rfl)

theorem closed_inStep : Closed (InStep (κ := κ)) where
  quiet hq h := ⟨hq.recv ▸ h.ready, hq.conn ▸ h.follows, by rw [hq.recv, hq.conn, h.unread]⟩
  input hbuf h := h.feed (π := fun w => w) (fun w f => conn_input f) hbuf rfl rfl
  conn hbuf h := h.feed (π := Prod.fst) conn_connInput hbuf rfl rfl
  down _ h := ⟨h.ready, h.follows, h.unread⟩
  up _ h := ⟨h.ready, h.follows, h.unread⟩

theorem inStep_create : InStep (⟨SsnClient.create, []⟩ : ClientWorld κ) where
  ready := StreamCtx.ready_reset
  follows := Conn.follows_fresh
  unread := StreamCtx.unread_reset

theorem InStep.send (h : InStep w) (msg : Message) : InStep (w.send net msg).1 := by
  have hconn : (w.send net msg).1.conn = w.conn := conn_emit _
  exact ⟨h.ready, hconn ▸ h.follows, by rw [hconn]; exact h.unread⟩

/-- Nothing is left in the receive context if the step makes a connection. -/
def Clean (w : ClientWorld κ) (op : ClientOp κ) : Prop :=
  w.Opens op → w.client.recv.unread = []

theorem inStep_step [DecidableEq κ] (net : Nat → Nat → SendStep) (w : ClientWorld κ)
    (op : ClientOp κ) (h : InStep w) (hclean : w.Clean op) : InStep (w.step net op) := by
  refine closed_inStep.step op (fun p _ hp => hp.send p.2) (fun hop w' hrecv hw' => ?_)
    ⟨h.ready, h.follows, h.unread⟩ h
  have hnil : w'.client.recv.unread = [] := by rw [hrecv, hclean hop]
  have hconn : (w'.emit .opened).conn = .fresh := conn_emit _
  exact ⟨hw'.ready, hconn ▸ Conn.follows_fresh, by rw [hconn]; exact hnil⟩

/-- The frames of the connection in use are those of a fresh context on its bytes. -/
def FramesFresh (w : ClientWorld κ) : Prop :=
  ∀ recv₀, w.conn.frames =
    (feedChunks (fun fs f => (record fs f, true)) (streamInit recv₀) w.conn.chunks []).2.1

end ClientWorld

/-! ## Runs -/

/-- **A connection made with a clean receive context gets its own frames.** In every run of a
client in which a connection is made only while nothing is left in the receive context, the frames
passed on are at every point those that a fresh context yields on the bytes of the connection in
use, whatever ended the connections before it. -/
theorem framesFresh_of_clean [DecidableEq κ] (net : Nat → Nat → SendStep) (ops : List (ClientOp κ))
    (hclean : Runs.EachStep (ClientWorld.step net) ClientWorld.Clean ⟨.create, []⟩ ops) :
    Runs.Always (ClientWorld.step net) ClientWorld.FramesFresh ⟨.create, []⟩ ops :=
  Runs.always_of_invariant (ClientWorld.inStep_step net) (fun _ h => h.follows.frames_eq)
    ClientWorld.inStep_create hclean

/-- The server's answer in a handshake: the client has the number 1. -/
def infoReply : Bytes :=
  packet MsgType.serviceInfo 0 0 none (some (Ref.ofBytes [0, 0, 0, 1]))

/-- A connection attempt that the server answers at once. -/
def answeredRun : ConnectRun := ⟨some 5, fun _ => .accepted headerSize, [⟨.data infoReply, false⟩]⟩

def answered : ClientOp Nat := .connect none answeredRun

/-- A client after such an attempt. -/
def connectedWorld : ClientWorld Nat := ClientWorld.step acceptAll ⟨.create, []⟩ answered

/-- A client with a connection and nothing else. -/
def connectedClient {κ : Type*} : ClientWorld κ :=
  ⟨{ SsnClient.create with connected := true, transport := some ⟨5, 100⟩ }, []⟩

/-- A run over two connections, the first of which ends behind the bytes `buf`. -/
def reconnectAfter (buf : Bytes) : List (ClientOp Nat) :=
  [answered, .poll (.ready (some (.data buf))), .poll (.ready (some .eof)), answered]

/-- Two connections, the first of which ends with its last frame. -/
theorem reconnectAfter_whole_fresh :
    Runs.Always (ClientWorld.step fun _ _ => .failed) ClientWorld.FramesFresh ⟨.create, []⟩
      (reconnectAfter infoReply) := by
  refine framesFresh_of_clean _ _ ?_
  simp only [reconnectAfter, Runs.eachStep_cons, Runs.eachStep_nil, and_true]
  refine ⟨fun _ => ?_, False.elim, False.elim, fun _ => ?_⟩ <;> decide +kernel

/-- The first connection ends within a frame. The handshake of the second one then sees the rest of
that frame in the server's answer. -/
theorem reconnectAfter_part_not_fresh :
    ¬ Runs.Always (ClientWorld.step fun _ _ => .failed) ClientWorld.FramesFresh ⟨.create, []⟩
      (reconnectAfter (infoReply.take 10)) := by
  intro h
  have hlen := congrArg List.length (h _ (List.prefix_refl _) ⟨0, 0, Mem.zero⟩)
  revert hlen
  decide +kernel

end Ssn
