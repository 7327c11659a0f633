import SsnIpc.Layers.ServerCalls

/-!
# The functions of the auto-client and of the timer threads, with their locks

`ssn_client_auto_start` makes a client and a thread under `cliauto->mutex`; the thread connects,
pings and polls the client without it, and takes it for every look at the state and every change
of it (`autoThread`). `ssn_client_auto_stop` waits for the thread without the mutex, and then closes
the client.

A timer thread goes through the list of clients, or of servers, under the lock of the list, and
counts down under the lock of each (`clientTimerRound`, `serverTimerRound`).

What a connection, a ping or a poll meets is a parameter, as for the client.
-/

namespace Ssn

open ByteMem Locking Locking.Code

variable {κ β : Type}

/-! ## Starting and stopping -/

/-- `ssn_client_auto_create`, with memory to spare. -/
def autoCreate : Prog κ β Nat :=
  perform fun h => (h.newAuto,
    { h.modifyAuto h.newAuto fun _ => .create with newAuto := h.newAuto + 1 })

/-- `ssn_client_auto_setup`: set or not. -/
def autoSetup (a : Nat) (isSet : Bool) : Prog κ β Unit :=
  onAuto a fun o => { o with hasOnconn := isSet }

/-- A start is accepted, and a stop has nothing to do. -/
def AutoObj.atRest (o : AutoObj) : Bool := o.state = .idle ∨ o.state = .stopped

/-- What a start is given, and what it meets: whether there is memory for its arguments, and whether
the client and the thread can be made. `onPublish` is `ssn_client_auto_msg_cb`. -/
structure AutoStart (κ : Type) where
  urls : List Bytes
  keepalive : Nat
  connTimeout : Nat
  onPublish : κ
  saved : Bool
  created : Bool
  threaded : Bool

/-- The arguments are kept, the times with their minimum. -/
def AutoObj.save (o : AutoObj) (start : AutoStart κ) : AutoObj :=
  { o with
    urls := if start.urls = [] then o.urls else start.urls
    keepalive := max 50 start.keepalive
    connTimeout := max 20 start.connTimeout }

/-- `ssn_client_auto_start`. -/
def autoStart (a : Nat) (start : AutoStart κ) : Prog κ β Bool :=
  locked (.auto a) do
    let o ← readAuto a
    if o.atRest && start.saved then
      onAuto a fun o => o.save start
      if start.created then
        let c ← clientCreate
        onAuto a fun o => { o with client := some c }
        clientSetOnPublish c (some start.onPublish)
        onAuto a fun o => { o with running := true, state := .connecting }
        if start.threaded then pure true
        else
          onAuto a fun o => { o with running := false, state := .stopped }
          clientClose c
          onAuto a fun o => { o with client := none, urls := [] }
          pure false
      else
        onAuto a fun o => { o with client := none, urls := [] }
        pure false
    else pure false

def autoCloseClient (a : Nat) : Option Nat → Prog κ β Unit
  | none => pure ()
  | some c => do
    clientClose c
    onAuto a fun o => { o with client := none }

/-- The part of `ssn_client_auto_stop` under the mutex: true if the thread is to be joined. -/
def AutoObj.halt (o : AutoObj) : Bool × AutoObj :=
  if o.atRest then (false, o) else (true, { o with running := false, state := .stopped })

/-- `ssn_client_auto_stop`, where `exits` tells whether the thread comes to its end. -/
def autoStop (a : Nat) (exits : Bool) : Prog κ β Bool := do
  let halted ← locked (.auto a) (perform fun h =>
    ((h.autos a).halt.1, h.modifyAuto a fun o => o.halt.2))
  if halted then
    if exits then
      let o ← readAuto a
      autoCloseClient a o.client
      onAuto a fun o => { o with urls := [], pingLost := 0 }
      pure true
    else wait
  else pure false

/-- `ssn_client_auto_delete`. -/
def autoDelete (a : Nat) (exits : Bool) : Prog κ β Unit := do
  let _ ← autoStop a exits
  let o ← readAuto a
  autoCloseClient a o.client

/-! ## The thread -/

/-- What one round of the thread meets: the descriptor if a connection is made, whether requests
can be sent, the polls of a ping and whether it is answered, and what the poll behind it finds. -/
structure AutoRound where
  fd : Option Nat
  sent : Bool
  polls : List ClientPollInput
  replied : Bool
  poll : ClientPollInput

/-- A state is written, under the mutex. -/
def autoWrite (a : Nat) (f : AutoObj → AutoObj) : Prog κ β Unit := locked (.auto a) (onAuto a f)

/-- The connection callback, if one is set. -/
def autoOnconn (a : Nat) : Prog κ β Unit := do
  let o ← readAuto a
  if o.hasOnconn then invoke else pure ()

/-- `CONNECTING`: connect, subscribe to all urls, and tell the user. -/
def autoConnecting (a c : Nat) (r : AutoRound) : Prog κ β Unit := do
  let connected ← clientConnect c r.fd
  if connected then
    autoWrite a fun o => { o with state := .connected, pingLost := 0 }
    let o ← readAuto a
    forEach (fun url => do
      let _ ← clientSubscribe c url none o.connTimeout r.sent
      pure ()) o.urls
    autoOnconn a
  else pure ()

/-- The connection is given up, and the user is told. -/
def autoLost (a : Nat) : Prog κ β Unit := do
  autoWrite a fun o => { o with state := .disconnected }
  autoOnconn a

/-- A ping without an answer is counted; true if it is one too many. -/
def AutoObj.countLost (o : AutoObj) : Bool × AutoObj :=
  (maxPingLost ≤ o.pingLost + 1, { o with pingLost := o.pingLost + 1 })

/-- What the thread does with the outcome of a ping. -/
def autoPinged (a : Nat) (answered : Bool) : Prog κ β Unit := do
  if answered then autoWrite a fun o => { o with pingLost := 0 }
  else
    let lost ← locked (.auto a) (perform fun h =>
      ((h.autos a).countLost.1, h.modifyAuto a fun o => o.countLost.2))
    if lost then autoLost a else pure ()

/-- `CONNECTED`: ping and poll. `k` is `ping_reply_cb`. -/
def autoConnected (a c : Nat) (k : κ) (r : AutoRound) : Prog κ β Unit := do
  let o ← readAuto a
  let answered ← clientPing c k o.keepalive r.sent r.polls r.replied
  autoPinged a answered
  clientPoll c r.poll
  let connected ← clientIsConnect c
  if connected then pure () else autoLost a

/-- What the thread does with the state it has read, on the client `c`: false if it exits. A wait
for the condition variable releases the mutex and takes it again. -/
def autoBranch (a c : Nat) (k : κ) (r : AutoRound) : AutoState → Prog κ β Bool
  | .connecting => do
    autoConnecting a c r
    pure true
  | .connected => do
    autoConnected a c k r
    pure true
  | .disconnected => do
    autoWrite a fun o => { o with state := .connecting }
    pure true
  | .stopped => pure false
  | .idle => do
    locked (.auto a) (pure ())
    locked (.auto a) (pure ())
    pure true

/-- `ssn_client_auto_thread`, on the client that its start made. After the rounds listed it is in a
call that does not return. -/
def autoThread (a c : Nat) (k : κ) : List AutoRound → Prog κ β Unit
  | [] => wait
  | r :: rs => do
    let state ← locked (.auto a) (gets fun h =>
      if (h.autos a).running then some (h.autos a).state else none)
    match state with
    | none => pure ()
    | some state =>
      let goOn ← autoBranch a c k r state
      if goOn then autoThread a c k rs else pure ()

/-! ## The timer threads -/

/-- One round of `ssn_client_timer_handle`, over the clients in the list. -/
def clientTimerRound (cs : List Nat) : Prog κ β Unit :=
  locked .clientList (forEach (fun c => locked (.client c) (modifyCore c SsnClient.timerSweep)) cs)

/-- `ssn_client_timer_handle`. -/
def clientTimerHandle (rounds : List (List Nat)) : Prog κ β Unit := forEach clientTimerRound rounds

/-- The part of a round for one server, which is passed over if its timer list is empty. -/
def serverTimerCount (s : Nat) : Prog κ β Unit := do
  let o ← readServer s
  if o.world.server.clients.any Client.hstLinked then
    locked (.server s) (modifyWorld s World.timerSweep)
  else pure ()

/-- One round of `ssn_server_timer_handle`, over the servers in the list. -/
def serverTimerRound (ss : List Nat) : Prog κ β Unit :=
  locked .serverList (forEach serverTimerCount ss)

/-- `ssn_server_timer_handle`. -/
def serverTimerHandle (rounds : List (List Nat)) : Prog κ β Unit := forEach serverTimerRound rounds

end Ssn
