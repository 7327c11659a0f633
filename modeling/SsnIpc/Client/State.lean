import SsnIpc.Lib.Bitmap
import SsnIpc.Frame.Send
import SsnIpc.Frame.Stream

/-!
# The client and its pending requests

The state of `ssn_client_t`, and the functions on its pool of pending requests: 1024 slots, a
bitmap of the slots in use, and a table from sequence numbers to slots. A request that wants an
answer takes a slot until its reply arrives, it times out or the connection ends.

A callback and its argument are one value of a type `κ`; `none` is the `NULL` pointer. As for the
server, what the client does to the outside is written to a log.
-/

namespace Ssn

open ByteMem

/-! ## State -/

/-- The type of a pending callback; `unset` in a slot that was never used. -/
inductive FType
  | unset
  | rpc
  | res
  deriving DecidableEq, Repr

/-- `ssn_pending_request_t`. Its field `index` is its place in the pool. -/
structure Pending (κ : Type*) where
  seqno : UInt16
  timeoutMs : UInt32
  ftype : FType
  callback : Option κ

/-- `ssn_sub_handler_t`. -/
structure SubHandler (κ : Type*) where
  url : Bytes
  callback : Option κ

/-- `SSN_CLIENT_MAX_PENDING`. -/
def maxPending : Nat := 1024

/-- The entry of `seqno_to_index` for a sequence number without a slot. -/
def noIndex : Nat := 0xFFFF

/-- `SSN_TIMER_PERIOD`, in milliseconds. -/
def pendingPeriod : UInt32 := 50

/-- `ssn_client_t`, for a client that is not closed. `evtPending` is the event pair that the timer
thread signals. -/
structure SsnClient (κ : Type*) where
  connected : Bool
  pendingPool : Nat → Pending κ
  pendingBitmap : Bitmap.Words
  seqnoToIndex : UInt16 → Nat
  sendbuf : Mem
  recv : StreamCtx
  cid : Option UInt32
  seqno : UInt16
  nextNonPendingSeqno : UInt16
  transport : Option Transport
  evtPending : Bool
  sendTimeout : Int
  onsub : Option κ
  onmsg : Option κ
  subHandlers : List (SubHandler κ)

/-- What can be seen of a client from outside. -/
inductive ClientEvent (κ : Type*)
  /-- A connection to the server was made. -/
  | opened
  /-- Bytes were received. -/
  | received (buf : Bytes)
  /-- A frame was passed to `ssn_client_conn_input`. -/
  | connInput (frame : Frame)
  /-- A frame was passed to `ssn_client_input`. -/
  | input (frame : Frame)
  /-- `ssn_client_sendmsg` was called. -/
  | sent (msg : Message) (out : SendOut)
  /-- The callback of a pending request was called, with a reply or without. -/
  | called (k : κ) (reply : Option Frame)
  /-- The callback of a subscription was called. -/
  | published (k : κ) (frame : Frame)
  /-- The handler of publications was called. -/
  | onsub (k : κ) (frame : Frame)
  /-- The handler of messages was called. -/
  | onmsg (k : κ) (frame : Frame)

/-- A client and its log. -/
structure ClientWorld (κ : Type*) where
  client : SsnClient κ
  log : List (ClientEvent κ)

variable {κ : Type*}

namespace SsnClient

/-- `ssn_client_create`. -/
def create : SsnClient κ where
  connected := false
  pendingPool _ := ⟨0, 0, .unset, none⟩
  pendingBitmap _ := 0#32
  seqnoToIndex _ := noIndex
  sendbuf := Mem.zero
  recv := streamInit ⟨0, 0, Mem.zero⟩
  cid := none
  seqno := 0
  nextNonPendingSeqno := 0
  transport := none
  evtPending := false
  sendTimeout := 100
  onsub := none
  onmsg := none
  subHandlers := []

/-! ## The pool of pending requests -/

/-- Slot `i` is in use. -/
def inUse (c : SsnClient κ) (i : Nat) : Bool := Bitmap.isSet c.pendingBitmap i

/-- `get_pending_snapshot`: the slot of a sequence number and what it holds. -/
def getPendingSnapshot (c : SsnClient κ) (seqno : UInt16) : Option (Nat × Pending κ) :=
  let index := c.seqnoToIndex seqno
  if index = noIndex ∨ maxPending ≤ index then none
  else if c.inUse index then some (index, c.pendingPool index)
  else none

/-- `free_pending_index`: the sequence number is forgotten if it still leads to this slot. -/
def freePendingIndex (c : SsnClient κ) (index : Nat) : SsnClient κ :=
  if maxPending ≤ index then c
  else
    let slotSeqno := (c.pendingPool index).seqno
    { c with
      seqnoToIndex := if c.seqnoToIndex slotSeqno = index
        then Function.update c.seqnoToIndex slotSeqno noIndex else c.seqnoToIndex
      pendingBitmap := Bitmap.clear c.pendingBitmap index }

/-- `alloc_pending_index`. -/
def allocPendingIndex (c : SsnClient κ) : Option (Nat × SsnClient κ) :=
  (Bitmap.firstFree (maxPending / 32) c.pendingBitmap).map fun index =>
    (index, { c with pendingBitmap := Bitmap.set c.pendingBitmap index })

/-- `ssn_client_prepare_seqno`: the sequence number of a request without a callback. -/
def prepareSeqno (c : SsnClient κ) : UInt16 × SsnClient κ :=
  if c.nextNonPendingSeqno = 0 then (1, { c with nextNonPendingSeqno := 2 })
  else (c.nextNonPendingSeqno, { c with nextNonPendingSeqno := c.nextNonPendingSeqno + 1 })

/-- Fill a slot for a request. -/
def register (c : SsnClient κ) (index : Nat) (ftype : FType) (k : κ) (timeoutMs : Nat) :
    SsnClient κ :=
  { c with
    pendingPool := Function.update c.pendingPool index
      ⟨c.seqno, UInt32.ofNat timeoutMs, ftype, some k⟩
    seqno := c.seqno + 1
    seqnoToIndex := Function.update c.seqnoToIndex c.seqno index }

/-- One turn of the collecting loop of `ssn_client_collect_and_call_pending`. -/
def collectOne (onlyTimeout : Bool) (acc : SsnClient κ × List (Pending κ)) (i : Nat) :
    SsnClient κ × List (Pending κ) :=
  let (c, items) := acc
  if c.inUse i ∧ (!onlyTimeout ∨ (c.pendingPool i).timeoutMs = 0) then
    (c.freePendingIndex i, items ++ [c.pendingPool i])
  else acc

/-- The collecting loop: the slots to report are freed, and what they held is returned. -/
def collect (c : SsnClient κ) (onlyTimeout : Bool) : SsnClient κ × List (Pending κ) :=
  (List.range maxPending).foldl (collectOne onlyTimeout) (c, [])

def sweepPending (p : Pending κ) : Pending κ :=
  { p with timeoutMs := if pendingPeriod < p.timeoutMs then p.timeoutMs - pendingPeriod else 0 }

/-- One round of `ssn_client_timer_handle` for this client. -/
def timerSweep (c : SsnClient κ) : SsnClient κ :=
  { c with
    pendingPool := fun i =>
      if i < maxPending ∧ c.inUse i then sweepPending (c.pendingPool i) else c.pendingPool i
    evtPending := c.evtPending || (List.range maxPending).any fun i =>
      c.inUse i ∧ ¬ pendingPeriod < (c.pendingPool i).timeoutMs }

end SsnClient

end Ssn
