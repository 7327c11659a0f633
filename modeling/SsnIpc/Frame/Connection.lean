import SsnIpc.Frame.Refinement
import SsnIpc.Lib.Restart

/-!
# A connection

What was received on a connection, chunk by chunk, and the frames that were dispatched. A receiver
that goes on after an invalid header is a framer that starts over, so the frames of a connection
are `Framer.emitted` of its chunks.

**Theorem (`Conn.Follows.frames_eq`).** They are what `streamFeed` yields on the chunks from a
fresh context.
-/

namespace Ssn

open ByteMem Framing

/-- What was received on a connection, and what was dispatched. -/
structure Conn where
  chunks : List Bytes
  frames : List Frame

namespace Conn

def fresh : Conn := ⟨[], []⟩

def stream (c : Conn) : Bytes := c.chunks.flatten

/-- What the stream parser of the connection should hold. -/
def held (c : Conn) : Bytes := packetFramer.heldAll [] c.chunks

def take (c : Conn) (buf : Bytes) : Conn :=
  ⟨c.chunks ++ [buf], c.frames ++ refFrames (c.held ++ buf)⟩

/-- The frames dispatched are those of a framer that starts over, on chunks a receiver can get. -/
structure Follows (c : Conn) : Prop where
  chunk : ∀ b ∈ c.chunks, b ≠ [] ∧ b.length ≤ maxPacketSize
  frames : c.frames.map Frame.bytes = packetFramer.emitted [] c.chunks

theorem follows_fresh : fresh.Follows := ⟨by simp [fresh], rfl⟩

theorem turnLeft_true (left : Option Bytes) : turnLeft true left = left.getD [] := by
  cases left <;> rfl

theorem held_take (c : Conn) (buf : Bytes) :
    (c.take buf).held = turnLeft true (refParse (c.held ++ buf)).2 := by
  rw [turnLeft_true]
  exact Framer.heldAll_append

theorem Follows.take {c : Conn} (h : c.Follows) {buf : Bytes}
    (hbuf : buf ≠ [] ∧ buf.length ≤ maxPacketSize) : (c.take buf).Follows := by
  refine ⟨fun b hb => ?_, ?_⟩
  · rcases List.mem_append.1 hb with hb | hb
    · exact h.chunk b hb
    · obtain rfl := List.mem_singleton.1 hb
      exact hbuf
  · rw [Conn.take, List.map_append, map_bytes_refFrames, h.frames, Framer.emitted_append]
    simp [Framer.emitted, refParse, held]

end Conn

/-- Feeding chunks and recording the frames is the framer that starts over. -/
theorem feedChunks_emitted {recv : StreamCtx} (h : recv.Ready) (bufs : List Bytes)
    (acc : List Frame) :
    (feedChunks (fun fs f => (record fs f, true)) recv bufs acc).2.1.map Frame.bytes =
      acc.map Frame.bytes ++ packetFramer.emitted recv.unread bufs := by
  induction bufs generalizing recv acc with
  | nil => simp [feedChunks, Framer.emitted]
  | cons buf bufs ih =>
    have hspec := streamFeed_spec (fun fs f => (record fs f, true)) recv buf acc h
    have harg := hspec.arg_eq
    have hleft := hspec.unread_eq
    rw [deliver_always, foldl_record] at harg
    rw [deliver_always] at hleft
    rw [feedChunks, ih hspec.ready, harg, List.map_append, map_bytes_refFrames, hleft,
      Conn.turnLeft_true, Framer.emitted, List.append_assoc]
    rfl

/-- **A connection yields what a fresh stream parser yields on its chunks.** -/
theorem Conn.Follows.frames_eq {c : Conn} (h : c.Follows) (recv₀ : StreamCtx) :
    c.frames =
      (feedChunks (fun fs f => (record fs f, true)) (streamInit recv₀) c.chunks []).2.1 := by
  have hready : (streamInit recv₀).Ready := StreamCtx.ready_reset
  have hfeed := feedChunks_emitted hready c.chunks []
  rw [streamInit, StreamCtx.unread_reset, List.map_nil, List.nil_append, ← h.frames] at hfeed
  exact (List.map_injective_iff.2 fun _ _ => Frame.ext_bytes) hfeed.symm

end Ssn
