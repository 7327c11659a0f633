import SsnIpc.Lib.ByteMem

/-!
# Transports

A transport is a socket descriptor and its configured send timeout. All socket transports of
`src/transports` behave alike towards the layers above: a closed descriptor (negative) fails every
send and receive, connecting closes the old descriptor and opens a new one, disconnecting closes.

What the operating system answers is a parameter: a send is taken in part, would block, or fails
(`SendStep`); the wait for a writable socket that follows a blocked send ends in one of four ways
(`PollEnd`).
-/

namespace Ssn

open ByteMem

/-- `ssn_transport_t`. The flag `valid` is set on creation and never cleared. -/
structure Transport where
  sockFd : Int
  sendTimeoutMs : Int
  deriving DecidableEq, Repr

namespace Transport

/-- `ssn_transport_get_fd`. -/
def getFd (t : Transport) : Int := t.sockFd

/-- `ssn_transport_disconnect`. -/
def disconnect (t : Transport) : Transport := { t with sockFd := -1 }

end Transport

/-- How `poll` on a socket that is not writable ends. -/
inductive PollEnd
  | ready
  | timeout
  | interrupted
  | failed
  deriving DecidableEq, Repr

/-- One attempt to send on an open socket: some bytes are taken, or it would block and is polled,
or it fails. -/
inductive SendStep
  | accepted (n : Nat)
  | again (poll : PollEnd)
  | failed
  deriving DecidableEq, Repr

/-- What `ssn_transport_recv` brings. -/
inductive RecvResult
  | data (buf : Bytes)
  | eof
  | again
  | error
  deriving DecidableEq

/-- `ssn_transport_send` as its caller sees it: no more is taken than was offered, and a closed
descriptor takes nothing. (The error code is then a stale one, which makes no difference to a
caller that looks at the descriptor too.) -/
def transportSend (t : Transport) (data : Bytes) (net : SendStep) : SendStep :=
  if t.sockFd < 0 then .failed
  else
    match net with
    | .accepted n => .accepted (min n data.length)
    | net => net

theorem transportSend_accepted {t : Transport} {data : Bytes} {net : SendStep} {n : Nat}
    (h : transportSend t data net = .accepted n) : n ≤ data.length := by
  unfold transportSend at h
  split_ifs at h
  cases net with
  | accepted m =>
    obtain rfl := SendStep.accepted.inj h
    exact Nat.min_le_right ..
  | again poll => cases h
  | failed => cases h

end Ssn
