import SsnIpc.Frame.Header

/-!
# The stream parser

`ssn_stream_feed` reassembles packets from a byte stream. Its context is a buffer of
`SSN_MAX_PACKET_SIZE` bytes with a write position `cur_len` and a read position `head`: new bytes
are appended at `cur_len`, packets are handed to the callback at `head`, and only when the buffer
is full are the unread bytes moved to the front.

The callback is a function on some state of the caller's. It returns the new state and whether to
go on. `total_len` of the C context is reset with the rest and read nowhere, so it is left out.
-/

namespace Ssn

open ByteMem

/-- `ssn_stream_ctx_t`. -/
structure StreamCtx where
  curLen : Nat
  head : Nat
  buffer : Mem

namespace StreamCtx

/-- The bytes received and not yet handed out, `buffer[head..cur_len)`. -/
def unread (recv : StreamCtx) : Bytes := recv.buffer.slice recv.head (recv.curLen - recv.head)

def reset (recv : StreamCtx) : StreamCtx := { recv with curLen := 0, head := 0 }

def compact (recv : StreamCtx) : StreamCtx where
  curLen := recv.curLen - recv.head
  head := 0
  buffer := recv.buffer.write 0 (recv.buffer.slice recv.head (recv.curLen - recv.head))

/-- A full buffer is compacted when bytes at its front have been handed out. -/
def makeRoom (recv : StreamCtx) : StreamCtx :=
  if maxPacketSize - recv.curLen = 0 ∧ 0 < recv.head then recv.compact else recv

def append (recv : StreamCtx) (bs : Bytes) : StreamCtx where
  curLen := recv.curLen + bs.length
  head := recv.head
  buffer := recv.buffer.write recv.curLen bs

/-- The positions are ordered and inside the buffer. -/
structure Wf (recv : StreamCtx) : Prop where
  head_le : recv.head ≤ recv.curLen
  cur_le : recv.curLen ≤ maxPacketSize

end StreamCtx

/-- `ssn_stream_init`. -/
def streamInit (recv : StreamCtx) : StreamCtx := recv.reset

/-- How a call of `ssn_stream_feed` ends: all input taken, the buffer full without a complete
packet, an invalid header, or stopped by the callback. -/
inductive FeedEnd
  | done
  | full
  | invalid
  | stopped
  deriving DecidableEq, Repr

/-- The value `ssn_stream_feed` returns. A stop is not an error. -/
def FeedEnd.ret : FeedEnd → Bool
  | done | stopped => true
  | full | invalid => false

section Feed

variable {σ : Type*} (callback : σ → Frame → σ × Bool)

/-- The inner loop: hand out packets from `head` on until the next one is incomplete (`none`) or
the call has to return. -/
def extract (recv : StreamCtx) (arg : σ) : StreamCtx × σ × Option FeedEnd :=
  let available := recv.curLen - recv.head
  if available < headerSize then (recv, arg, none)
  else
    match h : validateAndGetTotalLength (recv.buffer.slice recv.head available) with
    | none => (recv.reset, arg, some .invalid)
    | some total =>
      if ht : available < total then (recv, arg, none)
      else
        let packet : Frame := ⟨recv.buffer.slice recv.head total, by
          have hle := (validate_le h).1
          have ha : headerSize ≤ (recv.buffer.slice recv.head available).length := by
            rw [Mem.length_slice]; omega
          rw [← validate_take ha hle, Mem.take_slice _ _ _ _ (by omega)] at h
          rw [h, Mem.length_slice]⟩
        match callback arg packet with
        | (arg, true) => extract { recv with head := recv.head + total } arg
        | (arg, false) => (recv.reset, arg, some .stopped)
termination_by recv.curLen - recv.head
decreasing_by
  have := (validate_le h).1
  simp only [headerSize] at *
  omega

/-- `ssn_stream_feed` on the input `buf`. Each turn of the outer loop copies as much of the input
as fits and then runs the inner loop. -/
def streamFeed (recv : StreamCtx) (buf : Bytes) (arg : σ) : StreamCtx × σ × FeedEnd :=
  if _hb : buf = [] then (recv, arg, .done)
  else
    let spaceLeft := maxPacketSize - recv.makeRoom.curLen
    -- Still full: a buffer without a complete packet is a malformed stream.
    if _hs : spaceLeft = 0 then (recv.makeRoom.reset, arg, .full)
    else
      match extract callback (recv.makeRoom.append (buf.take spaceLeft)) arg with
      | (recv, arg, some e) => (recv, arg, e)
      | (recv, arg, none) => streamFeed recv (buf.drop spaceLeft) arg
termination_by buf.length
decreasing_by
  have := List.length_pos_iff.2 _hb
  rw [List.length_drop]
  omega

variable {callback} {P : σ → Prop}

theorem extract_keeps (hcb : ∀ arg f, P arg → P (callback arg f).1) (recv : StreamCtx) (arg : σ)
    (h : P arg) : P (extract callback recv arg).2.1 := by
  fun_induction extract callback recv arg with
  | case1 => exact h
  | case2 => exact h
  | case3 => exact h
  | case4 recv arg available hav total hv ht packet arg' hc ih =>
    have hkeep := hcb arg packet h
    rw [hc] at hkeep
    exact ih hkeep
  | case5 recv arg available hav total hv ht packet arg' hc =>
    have hkeep := hcb arg packet h
    rwa [hc] at hkeep

/-- What the callback keeps, a call keeps. -/
theorem streamFeed_keeps (hcb : ∀ arg f, P arg → P (callback arg f).1) (recv : StreamCtx)
    (buf : Bytes) (arg : σ) (h : P arg) : P (streamFeed callback recv buf arg).2.1 := by
  fun_induction streamFeed callback recv buf arg with
  | case1 => exact h
  | case2 => exact h
  | case3 recv buf arg hb spaceLeft hs recv' arg' e he =>
    have hkeep := extract_keeps hcb (recv.makeRoom.append (buf.take spaceLeft)) arg h
    rwa [he] at hkeep
  | case4 recv buf arg hb spaceLeft hs recv' arg' he ih =>
    have hkeep := extract_keeps hcb (recv.makeRoom.append (buf.take spaceLeft)) arg h
    rw [he] at hkeep
    exact ih hkeep

end Feed

end Ssn
