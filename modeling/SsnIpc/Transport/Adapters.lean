import SsnIpc.Transport.Sockets

/-!
# The adapters behind one interface

The layers above know a transport by a descriptor and a timeout (`Transport`). Below there are three
adapters with sockets, addresses and counters of their own.

**Theorem (`adapters_refine`).** Whatever is called on a transport, in any order, and whatever the
kernel answers, a Unix and a TCP transport return what the abstract channel does; so does a UDP
transport as long as nothing longer than a datagram is sent.

The adapters differ in when a connection is made (`SockKind.made`): a Unix transport that waits for
a connection in progress does not look at `SO_ERROR`, and a UDP transport does not wait at all.
-/

namespace Ssn

open ByteMem

/-! ## Calls -/

/-- The counters of what went through. -/
structure Traffic where
  bytesSent : UInt64
  bytesReceived : UInt64
  packetsSent : UInt32
  packetsReceived : UInt32
  deriving DecidableEq

/-- The calls of the layers above on one transport, with what the kernel answers. -/
inductive WireCall
  | connect (a : Address) (timeoutMs : Int) (env : DialEnv)
  | disconnect
  | isConnected
  | send (data : Bytes) (r : SendStep)
  | recv (size : Nat) (r : RecvResult)
  | getStats

/-- What they return; `none` is -1. -/
inductive WireAnswer
  | connected (ok : Bool)
  | disconnected
  | sent (n : Option Nat)
  | received (buf : Option Bytes)
  | stats (traffic : Traffic)
  deriving DecidableEq

def WireCall.Fits (kind : SockKind) : WireCall → Prop
  | .send data _ => kind = .udp → data.length ≤ udpMaxPacketSize
  | _ => True

/-! ### On an adapter -/

namespace SockTransport

/-- The traffic that `ssn_transport_get_stats` tells. -/
def traffic (t : SockTransport) : Traffic :=
  ⟨t.stats.bytesSent, t.stats.bytesReceived, t.stats.packetsSent, t.stats.packetsReceived⟩

/-- A call on an adapter. `ssn_transport_is_connected` looks at the descriptor only. -/
def call (s : Kernel × SockTransport) : WireCall → (Kernel × SockTransport) × WireAnswer
  | .connect a timeoutMs env =>
    let (k, t, ok) := s.2.connect s.1 a timeoutMs env
    ((k, t), .connected ok)
  | .disconnect => (s.2.disconnect s.1, .disconnected)
  | .isConnected => (s, .connected (decide (0 ≤ s.2.sockFd)))
  | .send data r => ((s.1, (s.2.send data.length r).1), .sent (s.2.send data.length r).2)
  | .recv size r => ((s.1, (s.2.recv size r).1), .received (s.2.recv size r).2)
  | .getStats => (s, .stats s.2.traffic)

end SockTransport

/-! ### On a channel -/

/-- A transport as the layers above know it, and what went through. -/
structure Channel where
  kind : SockKind
  transport : Transport
  traffic : Traffic

/-- The descriptor of the connection, if it is made. -/
def SockKind.made (kind : SockKind) (timeoutMs : Int) (env : DialEnv) : Option Nat :=
  match kind with
  | .unix => if env.dialed false timeoutMs then env.sock else none
  | .tcp => if env.dialed true timeoutMs then env.sock else none
  | .udp => env.sock

/-- The number of bytes that were taken. -/
def SendStep.taken : SendStep → Option Nat
  | .accepted n => some n
  | .again _ => none
  | .failed => none

/-- The bytes that fit into a buffer. -/
def RecvResult.bytes (size : Nat) : RecvResult → Option Bytes
  | .data buf => some (buf.take size)
  | .eof => some []
  | .again => none
  | .error => none

def Traffic.sent (c : Traffic) : Option Nat → Traffic
  | some n => { c with bytesSent := c.bytesSent + UInt64.ofNat n, packetsSent := c.packetsSent + 1 }
  | none => c

/-- What was received is counted, unless it is nothing. -/
def Traffic.received (c : Traffic) : Option Bytes → Traffic
  | some (b :: bs) =>
    { c with
      bytesReceived := c.bytesReceived + UInt64.ofNat (b :: bs).length
      packetsReceived := c.packetsReceived + 1 }
  | _ => c

namespace Channel

def moved (c : Channel) (fd : Option Nat) : Channel :=
  { c with transport := { c.transport with sockFd := fd.elim (-1) fun n => n } }

def call (c : Channel) : WireCall → Channel × WireAnswer
  | .connect _ timeoutMs env =>
    (c.moved (c.kind.made timeoutMs env), .connected (c.kind.made timeoutMs env).isSome)
  | .disconnect => ({ c with transport := c.transport.disconnect }, .disconnected)
  | .isConnected => (c, .connected (decide (0 ≤ c.transport.sockFd)))
  | .send data r =>
    let n := (transportSend c.transport data r).taken
    ({ c with traffic := c.traffic.sent n }, .sent n)
  | .recv size r =>
    let buf := if c.transport.sockFd < 0 then none else r.bytes size
    ({ c with traffic := c.traffic.received buf }, .received buf)
  | .getStats => (c, .stats c.traffic)

end Channel

/-! ## Refinement -/

namespace SockTransport

variable {t : SockTransport} {k : Kernel}

def channel (t : SockTransport) : Channel := ⟨t.kind, ⟨t.sockFd, t.sendTimeoutMs⟩, t.traffic⟩

/-! ### `connect` and `disconnect` -/

theorem channel_closeSock (h : -1 ≤ t.sockFd) (k : Kernel) :
    (t.closeSock k).2.channel = t.channel.moved none := by
  have hfd : (t.closeSock k).2.sockFd = -1 := by
    show (if 0 ≤ t.sockFd then -1 else t.sockFd) = -1
    split_ifs with h0
    · rfl
    · omega
  rw [channel, hfd]
  rfl

theorem channel_inetBind (type6 : TransportType) (a : Address) :
    (t.inetBind type6 a).channel = t.channel := by
  unfold inetBind
  split_ifs <;> rfl

theorem channel_settle {c : Channel} (hc : t.channel = c) {fd : Nat} (hfd : t.sockFd = fd)
    {done : SockTransport → SockTransport} (hdone : (done t).channel = t.channel) (dialed : Bool)
    (k : Kernel) :
    (t.settle k dialed done).2.1.channel = c.moved (if dialed then some fd else none) ∧
      (t.settle k dialed done).2.2 = dialed := by
  subst hc
  cases dialed with
  | true =>
    refine ⟨hdone.trans ?_, rfl⟩
    rw [channel, hfd]
    rfl
  | false => exact ⟨channel_closeSock (by omega) k, rfl⟩

/-- **A connection is made as the channel says.** An attempt without a socket ends at once, and the
old descriptor is closed all the same. -/
theorem channel_connect (k : Kernel) (a : Address) (timeoutMs : Int) (env : DialEnv) :
    (t.connect k a timeoutMs env).2.1.channel = t.channel.moved (t.kind.made timeoutMs env) ∧
      (t.connect k a timeoutMs env).2.2 = (t.kind.made timeoutMs env).isSome := by
  unfold connect
  cases hs : env.sock with
  | none =>
    have hmade : t.kind.made timeoutMs env = none := by
      cases t.kind <;> simp [SockKind.made, hs]
    rw [hmade]
    cases t.kind <;> simp only [unixConnect, tcpConnect, udpConnect, hs] <;> exact ⟨rfl, rfl⟩
  | some fd =>
    have hopen (u : SockTransport) : ¬ (u.reopen k (some fd)).2.sockFd < 0 :=
      Int.not_lt.2 (Int.natCast_nonneg fd)
    have hsome (b : Bool) : (if b then some fd else none).isSome = b := by cases b <;> rfl
    cases t.kind with
    | unix =>
      simp only [unixConnect, SockKind.made, hs, if_neg (hopen _), hsome]
      exact channel_settle rfl rfl rfl _ _
    | tcp =>
      simp only [tcpConnect, SockKind.made, hs, if_neg (hopen _), hsome]
      exact channel_settle (channel_inetBind .tcp6 a) (sockFd_inetBind .tcp6 a) rfl _ _
    | udp =>
      simp only [udpConnect, SockKind.made, hs, if_neg (hopen _)]
      exact ⟨channel_inetBind .udp6 a, rfl⟩

/-! ### Sending and receiving -/

theorem channel_streamSend (data : Bytes) (r : SendStep) :
    ((t.streamSend data.length r).1.channel, WireAnswer.sent (t.streamSend data.length r).2) =
      t.channel.call (.send data r) := by
  by_cases h : t.sockFd < 0
  · simp [streamSend, Channel.call, transportSend, channel, h, SendStep.taken, Traffic.sent]
  · cases r <;>
      simp [streamSend, Channel.call, transportSend, channel, h, SendStep.taken, Traffic.sent,
        traffic]

/-- A datagram that is not too long is sent as a stream's bytes are. -/
theorem udpSend_eq {len : Nat} (hlen : len ≤ udpMaxPacketSize) (r : SendStep) :
    t.udpSend len r = t.streamSend len r := by
  unfold udpSend
  rw [if_neg (Nat.not_lt.2 hlen)]
  split_ifs with hfd
  · exact (if_pos hfd).symm
  · rfl

theorem channel_send {data : Bytes} {r : SendStep} (hfits : (WireCall.send data r).Fits t.kind) :
    ((t.send data.length r).1.channel, WireAnswer.sent (t.send data.length r).2) =
      t.channel.call (.send data r) := by
  have hsend : t.send data.length r = t.streamSend data.length r := by
    unfold send
    cases hkind : t.kind with
    | unix => rfl
    | tcp => rfl
    | udp => exact udpSend_eq (hfits hkind) r
  rw [hsend]
  exact channel_streamSend data r

theorem channel_recv (size : Nat) (r : RecvResult) :
    ((t.recv size r).1.channel, WireAnswer.received (t.recv size r).2) =
      t.channel.call (.recv size r) := by
  by_cases h : t.sockFd < 0
  · simp [recv, Channel.call, channel, h, Traffic.received]
  · simp only [recv, Channel.call, channel, h, if_false]
    cases r with
    | data buf =>
      simp only [RecvResult.bytes]
      -- nothing received is not a packet
      cases buf.take size <;> rfl
    | _ => rfl

/-! ### Runs -/

/-- **A call on a transport is one on its channel.** -/
theorem channel_call {s : Kernel × SockTransport} (h : -1 ≤ s.2.sockFd) {c : WireCall}
    (hfits : c.Fits s.2.kind) :
    ((call s c).1.2.channel, (call s c).2) = s.2.channel.call c := by
  cases c with
  | connect a timeoutMs env =>
    obtain ⟨hc, hok⟩ := channel_connect (t := s.2) s.1 a timeoutMs env
    exact Prod.ext hc (congrArg WireAnswer.connected hok)
  | disconnect => exact Prod.ext (channel_closeSock h s.1) rfl
  | isConnected => rfl
  | send data r => exact channel_send hfits
  | recv size r => exact channel_recv size r
  | getStats => rfl

end SockTransport

/-- A channel keeps its kind, and its descriptor is -1 or one of the kernel's. -/
theorem Channel.call_keeps {c : Channel} (h : -1 ≤ c.transport.sockFd) (e : WireCall) :
    (c.call e).1.kind = c.kind ∧ -1 ≤ (c.call e).1.transport.sockFd := by
  cases e with
  | connect a timeoutMs env =>
    refine ⟨rfl, ?_⟩
    show -1 ≤ (c.kind.made timeoutMs env).elim (-1 : Int) fun n => n
    cases c.kind.made timeoutMs env with
    | none => exact le_rfl
    | some n => exact Int.le_trans (by decide) (Int.natCast_nonneg n)
  | disconnect => exact ⟨rfl, le_rfl⟩
  | _ => exact ⟨rfl, h⟩

/-- **The adapters are one.** A transport answers every list of calls as its channel does, whatever
the kernel answers, and its counters are those of the channel. Only UDP has a bound on what is sent
at once. -/
theorem adapters_refine (k : Kernel) (t : SockTransport) (hfd : -1 ≤ t.sockFd)
    (calls : List WireCall) (hfits : ∀ c ∈ calls, c.Fits t.kind) :
    Runs.answers SockTransport.call (k, t) calls = Runs.answers Channel.call t.channel calls := by
  have heach : Runs.EachStep (fun s c => (SockTransport.call s c).1) (fun _ c => c.Fits t.kind)
      (k, t) calls := Runs.eachStep_of_forall fun c hc _ => hfits c hc
  refine Runs.answers_eq_of_simulation (R := fun s c =>
    s.2.channel = c ∧ c.kind = t.kind ∧ -1 ≤ c.transport.sockFd) (fun s c e hs he => ?_)
    ⟨rfl, rfl, hfd⟩ heach
  obtain ⟨rfl, hkind, hlo⟩ := hs
  have hfit : e.Fits s.2.channel.kind := by rwa [hkind]
  have hcall := SockTransport.channel_call hlo hfit
  obtain ⟨hkind', hlo'⟩ := Channel.call_keeps hlo e
  exact ⟨congrArg Prod.snd hcall, congrArg Prod.fst hcall, hkind'.trans hkind, hlo'⟩

/-- A UDP transport in use: the last call is after the socket is closed. -/
def datagramCalls : List WireCall :=
  [.connect ⟨.udp, .inet 0 0, []⟩ 0 ⟨some 5, .failed, false, false⟩, .send [1, 2, 3] (.accepted 3),
    .disconnect, .isConnected, .send [4] (.accepted 1), .getStats]

theorem fits_datagramCalls : ∀ c ∈ datagramCalls, c.Fits SockKind.udp := by
  simp only [datagramCalls, List.forall_mem_cons, WireCall.Fits]
  simp [udpMaxPacketSize]

theorem adapters_refine_datagrams :
    Runs.answers SockTransport.call (⟨{3}, fun _ => none, 0⟩, .new .udp false 100 3) datagramCalls =
      [.connected true, .sent (some 3), .disconnected, .connected false, .sent none,
        .stats ⟨3, 0, 1, 0⟩] :=
  (adapters_refine ⟨{3}, fun _ => none, 0⟩ (.new .udp false 100 3) (by decide) datagramCalls
    fits_datagramCalls).trans (by decide)

end Ssn
