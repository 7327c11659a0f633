import SsnIpc.Lib.Owners
import SsnIpc.Lib.Runs
import SsnIpc.Transport
import SsnIpc.Transport.Address

/-!
# Socket transports

The three adapters of `src/transports` (Unix, TCP and UDP sockets) over a kernel that hands out
descriptors and keeps the files of Unix sockets. A transport has a descriptor of its own from its
creation on; connecting replaces it, accepting makes a transport around the descriptor of the new
connection, and destroying closes it. What the kernel answers is a parameter of each call.

**Theorem (`sockets_owned`).** In every run of any number of transports, whatever the kernel
answers: every descriptor that is open is held by exactly one transport that lives, and none is
closed but by the one that holds it. So none is leaked, shared or closed twice, and none is open
when all transports are destroyed.

A call on a single transport is described by what it does to the descriptors, whoever holds the
others (`Keeps`); such descriptions compose.
-/

namespace Ssn

open ByteMem

/-! ## The kernel -/

inductive FileKind
  | socket
  | other
  deriving DecidableEq

/-- The open descriptors, the files, and the number of times that `close` was called for a
descriptor that was not open. -/
structure Kernel where
  fds : Finset Nat
  files : Bytes → Option FileKind
  strays : Nat

namespace Kernel

/-- `socket`, with the descriptor that it returns. -/
def socket (k : Kernel) (answer : Option Nat) : Kernel × Int :=
  match answer with
  | some fd => ({ k with fds := insert fd k.fds }, fd)
  | none => (k, -1)

/-- `close`. -/
def close (k : Kernel) (fd : Int) : Kernel :=
  if 0 ≤ fd ∧ fd.toNat ∈ k.fds then { k with fds := k.fds.erase fd.toNat }
  else { k with strays := k.strays + 1 }

/-- `close` of a descriptor, if it is one. -/
def closeIfOpen (k : Kernel) (fd : Int) : Kernel := if 0 ≤ fd then k.close fd else k

/-- `unlink`. -/
def unlink (k : Kernel) (path : Bytes) : Kernel :=
  { k with files := Function.update k.files path none }

/-- Remove a socket that is at the path. -/
def clearSocket (k : Kernel) (path : Bytes) : Kernel :=
  if k.files path = some .socket then k.unlink path else k

/-- `bind` of a Unix socket, which makes its file; an empty path has none. -/
def bindUnix (k : Kernel) (fd : Int) (path : Bytes) (ok : Bool) : Kernel × Bool :=
  if 0 ≤ fd ∧ k.files path = none ∧ ok then
    ({ k with files :=
        if path = [] then k.files else Function.update k.files path (some .socket) }, true)
  else (k, false)

end Kernel

/-! ## Transports -/

inductive SockKind
  | unix
  | tcp
  | udp
  deriving DecidableEq

/-- `ssn_transport_stats_t`, as far as it is written. -/
structure TransportStats where
  bytesSent : UInt64
  bytesReceived : UInt64
  packetsSent : UInt32
  packetsReceived : UInt32
  sendErrors : UInt32
  recvErrors : UInt32
  connectionCount : UInt32
  deriving DecidableEq

/-- `ssn_transport_t` with its `impl_data`. Of the configuration only the send timeout matters here;
`valid` is set on creation and never cleared. -/
structure SockTransport where
  kind : SockKind
  sockFd : Int
  isServer : Bool
  ipv6Enabled : Bool
  addr : SockAddr
  addr6 : SockAddr
  socketPath : Bytes
  sendTimeoutMs : Int
  stats : TransportStats
  deriving DecidableEq

/-- The adapter that the factory has for a type, and whether it is for IPv6. -/
def creatorOf : TransportType → Option (SockKind × Bool)
  | .unix => some (.unix, false)
  | .tcp => some (.tcp, false)
  | .tcp6 => some (.tcp, true)
  | .udp => some (.udp, false)
  | .udp6 => some (.udp, true)
  | .tls => none
  | .dtls => none

def SockKind.noAddr : SockKind → SockAddr
  | .unix => .unix []
  | .tcp => .inet 0 0
  | .udp => .inet 0 0

def SockTransport.new (kind : SockKind) (ipv6Enabled : Bool) (sendTimeoutMs fd : Int) :
    SockTransport :=
  ⟨kind, fd, false, ipv6Enabled, kind.noAddr, .inet6 0 0, [], sendTimeoutMs, ⟨0, 0, 0, 0, 0, 0, 0⟩⟩

/-- `ssn_transport_create`. `mem` tells whether there is memory. -/
def SockTransport.create (k : Kernel) (type : TransportType) (sendTimeoutMs : Int) (mem : Bool)
    (sock : Option Nat) : Kernel × Option SockTransport :=
  match creatorOf type with
  | none => (k, none)
  | some (kind, ipv6Enabled) =>
    if mem then
      let (k, fd) := k.socket sock
      if fd < 0 then (k, none) else (k, some (.new kind ipv6Enabled sendTimeoutMs fd))
    else (k, none)

/-- What `connect` answers. -/
inductive DialResult
  | connected
  | inProgress
  | failed
  deriving DecidableEq

/-- What a connection attempt meets: the descriptor of the new socket, what `connect` answers, and
for a connection in progress, whether `select` finds it writable and whether `SO_ERROR` is set. -/
structure DialEnv where
  sock : Option Nat
  result : DialResult
  ready : Bool
  soError : Bool

/-- The connection is made. Only TCP looks at `SO_ERROR`. -/
def DialEnv.dialed (env : DialEnv) (checkSoError : Bool) (timeoutMs : Int) : Bool :=
  match env.result with
  | .connected => true
  | .inProgress => (0 < timeoutMs → env.ready) ∧ (checkSoError → !env.soError)
  | .failed => false

/-- What `listen` meets. -/
structure ListenEnv where
  bindOk : Bool
  listenOk : Bool

/-- What `accept` meets: whether `select` finds a connection, the descriptor and the address that
`accept` returns, and what the creation of the transport meets. -/
structure AcceptEnv where
  ready : Bool
  conn : Option (Nat × SockAddr)
  mem : Bool
  sock : Option Nat

/-- `sun_path`. -/
def SockAddr.sunPath : SockAddr → Bytes
  | .unix path => path
  | .inet _ _ => []
  | .inet6 _ _ => []

/-- `UDP_MAX_PACKET_SIZE`. -/
def udpMaxPacketSize : Nat := 65507

namespace SockTransport

/-- The descriptor that the transport holds. -/
def fd (t : SockTransport) : Option Nat := if 0 ≤ t.sockFd then some t.sockFd.toNat else none

def closeSock (t : SockTransport) (k : Kernel) : Kernel × SockTransport :=
  (k.closeIfOpen t.sockFd, { t with sockFd := if 0 ≤ t.sockFd then -1 else t.sockFd })

/-! ### `bind` -/

/-- `unix_transport_bind`: the address is only kept. -/
def unixBind (t : SockTransport) (a : Address) : SockTransport :=
  { t with addr := a.addr, socketPath := a.addr.sunPath.take 107 }

/-- What `tcp_transport_bind` and `udp_transport_bind` share. -/
def inetBind (type6 : TransportType) (t : SockTransport) (a : Address) : SockTransport :=
  if a.type = type6 then { t with ipv6Enabled := true, addr6 := a.addr }
  else { t with ipv6Enabled := false, addr := a.addr }

/-- `tcp_transport_bind`. -/
def tcpBind : SockTransport → Address → SockTransport := inetBind .tcp6

/-- `udp_transport_bind`. -/
def udpBind : SockTransport → Address → SockTransport := inetBind .udp6

/-- `ssn_transport_bind`. -/
def bind (t : SockTransport) (a : Address) : SockTransport :=
  match t.kind with
  | .unix => t.unixBind a
  | .tcp => t.tcpBind a
  | .udp => t.udpBind a

/-! ### `connect` and `disconnect` -/

/-- The beginning of a connection: a new socket in place of the old one. -/
def reopen (t : SockTransport) (k : Kernel) (sock : Option Nat) : Kernel × SockTransport :=
  let (k, t) := t.closeSock k
  let (k, sockFd) := k.socket sock
  (k, { t with sockFd })

/-- The end of an attempt: `done` if the connection is made, and no descriptor otherwise. -/
def settle (t : SockTransport) (k : Kernel) (dialed : Bool) (done : SockTransport → SockTransport) :
    Kernel × SockTransport × Bool :=
  if dialed then (k, done t, true)
  else
    let (k, t) := t.closeSock k
    (k, t, false)

/-- `unix_transport_connect`. -/
def unixConnect (t : SockTransport) (k : Kernel) (a : Address) (timeoutMs : Int) (env : DialEnv) :
    Kernel × SockTransport × Bool :=
  let (k, t) := t.reopen k env.sock
  if t.sockFd < 0 then (k, t, false)
  else
    { t with addr := a.addr }.settle k (env.dialed false timeoutMs) fun t =>
      { t with isServer := false, socketPath := a.addr.sunPath.take 107 }

def counted (t : SockTransport) : SockTransport :=
  { t with
    isServer := false
    stats := { t.stats with connectionCount := t.stats.connectionCount + 1 } }

/-- `tcp_transport_connect`. -/
def tcpConnect (t : SockTransport) (k : Kernel) (a : Address) (timeoutMs : Int) (env : DialEnv) :
    Kernel × SockTransport × Bool :=
  let (k, t) := { t with ipv6Enabled := decide (a.type = TransportType.tcp6) }.reopen k env.sock
  if t.sockFd < 0 then (k, t, false)
  else (t.tcpBind a).settle k (env.dialed true timeoutMs) counted

/-- `udp_transport_connect`: there is nobody to wait for. -/
def udpConnect (t : SockTransport) (k : Kernel) (a : Address) (env : DialEnv) :
    Kernel × SockTransport × Bool :=
  let (k, t) := { t with ipv6Enabled := decide (a.type = TransportType.udp6) }.reopen k env.sock
  if t.sockFd < 0 then (k, t, false)
  else (k, (t.udpBind a).counted, true)

/-- `ssn_transport_connect`. -/
def connect (t : SockTransport) (k : Kernel) (a : Address) (timeoutMs : Int) (env : DialEnv) :
    Kernel × SockTransport × Bool :=
  match t.kind with
  | .unix => t.unixConnect k a timeoutMs env
  | .tcp => t.tcpConnect k a timeoutMs env
  | .udp => t.udpConnect k a env

/-- `ssn_transport_disconnect`. -/
def disconnect (t : SockTransport) (k : Kernel) : Kernel × SockTransport := t.closeSock k

/-! ### Sending and receiving -/

/-- What the two stream adapters share: `len` bytes are offered, and `none` is -1. -/
def streamSend (t : SockTransport) (len : Nat) (r : SendStep) : SockTransport × Option Nat :=
  if t.sockFd < 0 then (t, none)
  else
    match r with
    | .accepted n =>
      ({ t with stats := { t.stats with
          bytesSent := t.stats.bytesSent + UInt64.ofNat (min n len)
          packetsSent := t.stats.packetsSent + 1 } }, some (min n len))
    | .again _ => (t, none)
    | .failed => ({ t with stats := { t.stats with sendErrors := t.stats.sendErrors + 1 } }, none)

/-- `udp_transport_send`. -/
def udpSend (t : SockTransport) (len : Nat) (r : SendStep) : SockTransport × Option Nat :=
  if t.sockFd < 0 then (t, none)
  else if udpMaxPacketSize < len then (t, none)
  else t.streamSend len r

/-- `ssn_transport_send`. -/
def send (t : SockTransport) (len : Nat) (r : SendStep) : SockTransport × Option Nat :=
  match t.kind with
  | .unix => t.streamSend len r
  | .tcp => t.streamSend len r
  | .udp => t.udpSend len r

/-- `ssn_transport_recv` into a buffer of `size` bytes, the same for the three adapters. -/
def recv (t : SockTransport) (size : Nat) (r : RecvResult) : SockTransport × Option Bytes :=
  if t.sockFd < 0 then (t, none)
  else
    match r with
    | .data buf =>
      if buf.take size = [] then (t, some [])
      else
        ({ t with stats := { t.stats with
            bytesReceived := t.stats.bytesReceived + UInt64.ofNat (buf.take size).length
            packetsReceived := t.stats.packetsReceived + 1 } }, some (buf.take size))
    | .eof => (t, some [])
    | .again => (t, none)
    | .error => ({ t with stats := { t.stats with recvErrors := t.stats.recvErrors + 1 } }, none)

/-! ### `listen` and `accept` -/

/-- `unix_transport_listen`: a socket that is left at the path is removed, any other file is not. -/
def unixListen (t : SockTransport) (k : Kernel) (env : ListenEnv) : Kernel × SockTransport × Bool :=
  if k.files t.socketPath = some .other then (k, t, false)
  else
    let (k, ok) := (k.clearSocket t.socketPath).bindUnix t.sockFd t.addr.sunPath env.bindOk
    if ok ∧ env.listenOk then (k, { t with isServer := true }, true) else (k, t, false)

/-- `tcp_transport_listen`. -/
def tcpListen (t : SockTransport) (env : ListenEnv) : SockTransport × Bool :=
  if 0 ≤ t.sockFd ∧ env.bindOk ∧ env.listenOk then ({ t with isServer := true }, true)
  else (t, false)

/-- `udp_transport_listen`. -/
def udpListen (t : SockTransport) (env : ListenEnv) : SockTransport × Bool :=
  if 0 ≤ t.sockFd ∧ env.bindOk then ({ t with isServer := true }, true) else (t, false)

/-- `ssn_transport_listen`. -/
def listen (t : SockTransport) (k : Kernel) (env : ListenEnv) : Kernel × SockTransport × Bool :=
  match t.kind with
  | .unix => t.unixListen k env
  | .tcp => (k, t.tcpListen env)
  | .udp => (k, t.udpListen env)

/-- A transport takes the descriptor of a connection in place of the one that it was created with.
If it was not created, the connection is closed. -/
def adopt (clientFd : Nat) (finish : SockTransport → SockTransport) :
    Kernel × Option SockTransport → Kernel × Option SockTransport
  | (k, none) => (k.close clientFd, none)
  | (k, some client) =>
    let (k, client) := client.closeSock k
    (k, some (finish { client with sockFd := clientFd, isServer := false }))

/-- What the two stream adapters share: a transport of the given type is made for the descriptor of
the new connection. -/
def streamAccept (t : SockTransport) (k : Kernel) (timeoutMs : Int) (env : AcceptEnv)
    (type : TransportType) (finish : SockAddr → SockTransport → SockTransport) :
    Kernel × Option SockTransport :=
  if t.sockFd < 0 then (k, none)
  else if 0 < timeoutMs ∧ !env.ready then (k, none)
  else
    match env.conn with
    | none => (k, none)
    | some (clientFd, peer) =>
      adopt clientFd (finish peer) (SockTransport.create { k with fds := insert clientFd k.fds }
        type t.sendTimeoutMs env.mem env.sock)

/-- `unix_transport_accept`. -/
def unixAccept (t : SockTransport) (k : Kernel) (timeoutMs : Int) (env : AcceptEnv) :
    Kernel × Option SockTransport :=
  t.streamAccept k timeoutMs env .unix fun peer client => { client with addr := peer }

/-- `tcp_transport_accept`. -/
def tcpAccept (t : SockTransport) (k : Kernel) (timeoutMs : Int) (env : AcceptEnv) :
    Kernel × Option SockTransport :=
  t.streamAccept k timeoutMs env (if t.ipv6Enabled then .tcp6 else .tcp)
    fun _ client => { client with ipv6Enabled := t.ipv6Enabled }

/-- `ssn_transport_accept`, as far as it makes a transport: that of UDP returns the transport that
it is called for, if no address is asked for, and `NULL` otherwise. -/
def accept (t : SockTransport) (k : Kernel) (timeoutMs : Int) (env : AcceptEnv) :
    Kernel × Option SockTransport :=
  match t.kind with
  | .unix => t.unixAccept k timeoutMs env
  | .tcp => t.tcpAccept k timeoutMs env
  | .udp => (k, none)

/-! ### `destroy` -/

/-- `ssn_transport_destroy`. A Unix transport that listened removes the file at its path. -/
def destroy (t : SockTransport) (k : Kernel) : Kernel :=
  let (k, t) := t.closeSock k
  if t.kind = .unix ∧ t.isServer ∧ t.socketPath ≠ [] then k.unlink t.socketPath else k

end SockTransport

/-! ## Systems of transports -/

/-- A kernel and the transports that live. The handle `next` is the first that was not given out. -/
structure Sockets where
  kernel : Kernel
  transports : Nat → Option SockTransport
  next : Nat

/-- The calls. No transport may be used after it was destroyed, which is undefined in C; such a call
does nothing here. -/
inductive SockOp
  | create (type : TransportType) (sendTimeoutMs : Int) (mem : Bool) (sock : Option Nat)
  | bind (h : Nat) (a : Address)
  | connect (h : Nat) (a : Address) (timeoutMs : Int) (env : DialEnv)
  | disconnect (h : Nat)
  | send (h : Nat) (len : Nat) (r : SendStep)
  | recv (h : Nat) (size : Nat) (r : RecvResult)
  | listen (h : Nat) (env : ListenEnv)
  | accept (h : Nat) (timeoutMs : Int) (env : AcceptEnv)
  | destroy (h : Nat)

namespace Sockets

def on (s : Sockets) (h : Nat) (f : SockTransport → Kernel × SockTransport) : Sockets :=
  match s.transports h with
  | none => s
  | some t => { s with kernel := (f t).1, transports := Function.update s.transports h (f t).2 }

def add (s : Sockets) (out : Kernel × Option SockTransport) : Sockets :=
  match out.2 with
  | none => { s with kernel := out.1 }
  | some t => ⟨out.1, Function.update s.transports s.next t, s.next + 1⟩

def step (s : Sockets) : SockOp → Sockets
  | .create type sendTimeoutMs mem sock =>
    s.add (SockTransport.create s.kernel type sendTimeoutMs mem sock)
  | .bind h a => s.on h fun t => (s.kernel, t.bind a)
  | .connect h a timeoutMs env => s.on h fun t =>
      ((t.connect s.kernel a timeoutMs env).1, (t.connect s.kernel a timeoutMs env).2.1)
  | .disconnect h => s.on h fun t => t.disconnect s.kernel
  | .send h len r => s.on h fun t => (s.kernel, (t.send len r).1)
  | .recv h size r => s.on h fun t => (s.kernel, (t.recv size r).1)
  | .listen h env => s.on h fun t => ((t.listen s.kernel env).1, (t.listen s.kernel env).2.1)
  | .accept h timeoutMs env =>
    match s.transports h with
    | none => s
    | some t => s.add (t.accept s.kernel timeoutMs env)
  | .destroy h =>
    match s.transports h with
    | none => s
    | some t => { s with
        kernel := t.destroy s.kernel
        transports := Function.update s.transports h none }

def init (files : Bytes → Option FileKind) : Sockets := ⟨⟨∅, files, 0⟩, fun _ => none, 0⟩

def held (s : Sockets) (h : Nat) : Option Nat := (s.transports h).bind SockTransport.fd

/-- The kernel hands out descriptors that are not open at that moment. -/
def Fair (s : Sockets) : SockOp → Prop
  | .create _ _ _ sock => ∀ fd ∈ sock, fd ∉ s.kernel.fds
  | .connect h _ _ env => ∀ t ∈ s.transports h, ∀ fd ∈ env.sock,
      fd ∉ (s.kernel.closeIfOpen t.sockFd).fds
  | .accept _ _ env => ∀ c ∈ env.conn, c.1 ∉ s.kernel.fds ∧
      ∀ fd ∈ env.sock, fd ≠ c.1 ∧ fd ∉ s.kernel.fds
  | _ => True

instance (s : Sockets) (op : SockOp) : Decidable (s.Fair op) := by
  cases op <;> dsimp only [Fair] <;> infer_instance

/-- Every open descriptor is held by one transport, descriptors are closed by their holders only,
and none is open when no transport lives. -/
structure Owned (s : Sockets) : Prop where
  owners : Owners s.kernel.fds s.held
  strays : s.kernel.strays = 0
  closed : (∀ h, s.transports h = none) → s.kernel.fds = ∅

end Sockets

/-! ## What a call does to descriptors -/

/-- One owner goes from `fd` to `fd'`, whatever the others hold, and closes nothing else. -/
def Keeps (k : Kernel) (fd : Option Nat) (k' : Kernel) (fd' : Option Nat) : Prop :=
  ∀ (held : Nat → Option Nat) (h : Nat), held h = fd → Owners k.fds held →
    Owners k'.fds (Function.update held h fd') ∧ k'.strays = k.strays

variable {k k' k'' : Kernel} {fd fd' fd'' : Option Nat} {t : SockTransport}

theorem Keeps.refl (k : Kernel) (fd : Option Nat) : Keeps k fd k fd := by
  intro held h hfd hown
  rw [← hfd, Function.update_eq_self]
  exact ⟨hown, rfl⟩

theorem Keeps.trans (h : Keeps k fd k' fd') (h' : Keeps k' fd' k'' fd'') : Keeps k fd k'' fd'' := by
  intro held i hfd hown
  obtain ⟨hown', hs⟩ := h held i hfd hown
  obtain ⟨hown'', hs'⟩ := h' _ i (Function.update_self ..) hown'
  rw [Function.update_idem] at hown''
  exact ⟨hown'', hs'.trans hs⟩

theorem Keeps.of_fds (hfds : k'.fds = k.fds) (hs : k'.strays = k.strays) : Keeps k fd k' fd := by
  intro held h hfd hown
  rw [← hfd, Function.update_eq_self, hfds]
  exact ⟨hown, hs⟩

theorem keeps_close {n : Nat} : Keeps k (some n) (k.close n) none := by
  intro held h hfd hown
  have hmem : n ∈ k.fds := (hown.mem_iff n).2 ⟨h, hfd⟩
  rw [Kernel.close, if_pos ⟨Int.natCast_nonneg n, by simpa using hmem⟩]
  exact ⟨hown.give hfd, rfl⟩

theorem keeps_open {n : Nat} (hn : n ∉ k.fds) :
    Keeps k none { k with fds := insert n k.fds } (some n) := by
  intro held h hfd hown
  exact ⟨hown.take hfd hn, rfl⟩

namespace SockTransport

theorem fd_neg (h : t.sockFd < 0) : t.fd = none := if_neg (by omega)

theorem fd_nat {n : Nat} (h : t.sockFd = n) : t.fd = some n := by
  rw [fd, h]
  simp

theorem fd_closeSock : (t.closeSock k).2.fd = none := by
  refine fd_neg ?_
  show (if 0 ≤ t.sockFd then -1 else t.sockFd) < 0
  split_ifs with h
  · decide
  · omega

theorem keeps_closeSock : Keeps k t.fd (t.closeSock k).1 (t.closeSock k).2.fd := by
  rw [fd_closeSock]
  show Keeps k t.fd (k.closeIfOpen t.sockFd) none
  unfold Kernel.closeIfOpen
  split_ifs with h
  · obtain ⟨n, hn⟩ := Int.eq_ofNat_of_zero_le h
    rw [fd_nat hn, hn]
    exact keeps_close
  · rw [fd_neg (by omega)]
    exact Keeps.refl k none

theorem fd_congr {t' : SockTransport} (h : t'.sockFd = t.sockFd) : t'.fd = t.fd := by
  rw [fd, h]
  rfl

theorem keeps_reopen {sock : Option Nat} (hsock : ∀ n ∈ sock, n ∉ (k.closeIfOpen t.sockFd).fds) :
    Keeps k t.fd (t.reopen k sock).1 (t.reopen k sock).2.fd := by
  have hclose := keeps_closeSock (t := t) (k := k)
  rw [fd_closeSock] at hclose
  refine hclose.trans ?_
  unfold reopen Kernel.socket
  cases sock with
  | none => exact Keeps.refl _ none
  | some n =>
    show Keeps (t.closeSock k).1 none _ (fd { (t.closeSock k).2 with sockFd := n })
    rw [fd_nat rfl]
    exact keeps_open (hsock n rfl)

theorem keeps_settle {dialed : Bool} {done : SockTransport → SockTransport}
    (hdone : ∀ t, (done t).sockFd = t.sockFd) :
    Keeps k t.fd (t.settle k dialed done).1 (t.settle k dialed done).2.1.fd := by
  unfold settle
  split_ifs
  · rw [fd_congr (hdone t)]
    exact Keeps.refl k t.fd
  · exact keeps_closeSock

theorem sockFd_inetBind (type6 : TransportType) (a : Address) :
    (inetBind type6 t a).sockFd = t.sockFd := by
  unfold inetBind
  split_ifs <;> rfl

theorem sockFd_bind (a : Address) : (t.bind a).sockFd = t.sockFd := by
  unfold bind
  cases t.kind
  · rfl
  · exact sockFd_inetBind .tcp6 a
  · exact sockFd_inetBind .udp6 a

theorem sockFd_send (len : Nat) (r : SendStep) : (t.send len r).1.sockFd = t.sockFd := by
  have hstream : (t.streamSend len r).1.sockFd = t.sockFd := by
    unfold streamSend
    split_ifs
    · rfl
    · cases r <;> rfl
  unfold send
  cases t.kind
  · exact hstream
  · exact hstream
  · simp only [udpSend]
    split_ifs
    · rfl
    · rfl
    · exact hstream

theorem sockFd_recv (size : Nat) (r : RecvResult) : (t.recv size r).1.sockFd = t.sockFd := by
  unfold recv
  split_ifs
  · rfl
  · cases r <;> simp only
    split_ifs <;> rfl

/-- `connect` ends with a new descriptor or with none. -/
theorem keeps_connect {a : Address} {timeoutMs : Int} {env : DialEnv}
    (henv : ∀ n ∈ env.sock, n ∉ (k.closeIfOpen t.sockFd).fds) :
    Keeps k t.fd (t.connect k a timeoutMs env).1 (t.connect k a timeoutMs env).2.1.fd := by
  have hopen (ipv6Enabled : Bool) :
      let out := { t with ipv6Enabled }.reopen k env.sock
      Keeps k t.fd out.1 out.2.fd := keeps_reopen (t := { t with ipv6Enabled }) henv
  have hbind (type6 : TransportType) (u : SockTransport) : (u.inetBind type6 a).fd = u.fd :=
    fd_congr (sockFd_inetBind type6 a)
  unfold connect
  cases t.kind with
  | unix =>
    simp only [unixConnect]
    split_ifs
    · exact hopen t.ipv6Enabled
    · exact (hopen t.ipv6Enabled).trans
        (keeps_settle (t := { (t.reopen k env.sock).2 with addr := a.addr }) fun _ => rfl)
  | tcp =>
    simp only [tcpConnect]
    split_ifs
    · exact hopen _
    · refine (hopen (decide (a.type = .tcp6))).trans ?_
      rw [← hbind .tcp6]
      exact keeps_settle fun _ => rfl
  | udp =>
    simp only [udpConnect]
    split_ifs
    · exact hopen _
    · refine (hopen (decide (a.type = .udp6))).trans ?_
      rw [← hbind .udp6]
      exact Keeps.refl _ _

/-- `listen` opens and closes nothing. -/
theorem keeps_listen {env : ListenEnv} :
    Keeps k t.fd (t.listen k env).1 (t.listen k env).2.1.fd := by
  unfold listen
  cases t.kind with
  | unix =>
    have hbind (k : Kernel) : (k.bindUnix t.sockFd t.addr.sunPath env.bindOk).1.fds = k.fds ∧
        (k.bindUnix t.sockFd t.addr.sunPath env.bindOk).1.strays = k.strays := by
      unfold Kernel.bindUnix
      split_ifs <;> exact ⟨rfl, rfl⟩
    have hclear : (k.clearSocket t.socketPath).fds = k.fds ∧
        (k.clearSocket t.socketPath).strays = k.strays := by
      unfold Kernel.clearSocket
      split_ifs <;> exact ⟨rfl, rfl⟩
    simp only [unixListen]
    split_ifs
    · exact Keeps.refl k t.fd
    all_goals exact .of_fds ((hbind _).1.trans hclear.1) ((hbind _).2.trans hclear.2)
  | tcp =>
    simp only [tcpListen]
    split_ifs <;> exact Keeps.refl k t.fd
  | udp =>
    simp only [udpListen]
    split_ifs <;> exact Keeps.refl k t.fd

theorem create_cases (k : Kernel) (type : TransportType) (sendTimeoutMs : Int)
    (mem : Bool) (sock : Option Nat) :
    SockTransport.create k type sendTimeoutMs mem sock = (k, none) ∨
      ∃ n kind ipv6Enabled, sock = some n ∧
        SockTransport.create k type sendTimeoutMs mem sock =
          ({ k with fds := insert n k.fds }, some (.new kind ipv6Enabled sendTimeoutMs n)) := by
  unfold SockTransport.create
  cases creatorOf type with
  | none => exact .inl rfl
  | some c =>
    cases mem with
    | false => exact .inl rfl
    | true =>
      cases sock with
      | none => exact .inl rfl
      | some n => exact .inr ⟨n, c.1, c.2, rfl, rfl⟩

theorem keeps_create {type : TransportType} {sendTimeoutMs : Int} {mem : Bool} {sock : Option Nat}
    (hsock : ∀ n ∈ sock, n ∉ k.fds) :
    Keeps k none (SockTransport.create k type sendTimeoutMs mem sock).1
      ((SockTransport.create k type sendTimeoutMs mem sock).2.bind SockTransport.fd) := by
  rcases SockTransport.create_cases k type sendTimeoutMs mem sock with e | ⟨n, kind, v6, hn, e⟩
  · rw [e]
    exact Keeps.refl k none
  · rw [e]
    show Keeps k none _ (SockTransport.new kind v6 sendTimeoutMs n).fd
    rw [fd_nat (n := n) rfl]
    exact keeps_open (hsock n hn)

/-- A transport that is accepted holds the descriptor of the connection. -/
theorem keeps_streamAccept {timeoutMs : Int} {env : AcceptEnv} {type : TransportType}
    {finish : SockAddr → SockTransport → SockTransport}
    (hfinish : ∀ peer t, (finish peer t).sockFd = t.sockFd)
    (henv : ∀ c ∈ env.conn, c.1 ∉ k.fds ∧ ∀ n ∈ env.sock, n ≠ c.1 ∧ n ∉ k.fds) :
    Keeps k none (t.streamAccept k timeoutMs env type finish).1
      ((t.streamAccept k timeoutMs env type finish).2.bind SockTransport.fd) := by
  unfold streamAccept
  split_ifs
  · exact Keeps.refl k none
  · exact Keeps.refl k none
  · cases hconn : env.conn with
    | none => exact Keeps.refl k none
    | some c =>
      obtain ⟨hc, hsock⟩ := henv c hconn
      have hopen := keeps_open hc
      simp only
      rcases create_cases { k with fds := insert c.1 k.fds } type t.sendTimeoutMs env.mem
        env.sock with e | ⟨n, kind, v6, hn, e⟩
      · -- The connection is closed again.
        rw [e]
        exact hopen.trans keeps_close
      · -- The descriptor that the transport was created with is closed.
        obtain ⟨hne, hfree⟩ := hsock n hn
        have hclose : Kernel.closeIfOpen { k with fds := insert n (insert c.1 k.fds) } n =
            { k with fds := insert c.1 k.fds } := by
          have hmem : (n : Int).toNat ∈ insert n (insert c.1 k.fds) := by simp
          rw [Kernel.closeIfOpen, if_pos (Int.natCast_nonneg n), Kernel.close,
            if_pos ⟨Int.natCast_nonneg n, hmem⟩, Int.toNat_natCast, Finset.erase_insert]
          simp [hne, hfree]
        rw [e]
        show Keeps k none (Kernel.closeIfOpen { k with fds := insert n (insert c.1 k.fds) } n) _
        rw [hclose]
        show Keeps k none _ (finish c.2 _).fd
        rw [fd_nat (n := c.1) (hfinish ..)]
        exact hopen

theorem keeps_accept {timeoutMs : Int} {env : AcceptEnv}
    (henv : ∀ c ∈ env.conn, c.1 ∉ k.fds ∧ ∀ n ∈ env.sock, n ≠ c.1 ∧ n ∉ k.fds) :
    Keeps k none (t.accept k timeoutMs env).1
      ((t.accept k timeoutMs env).2.bind SockTransport.fd) := by
  unfold accept
  cases t.kind with
  | unix => exact keeps_streamAccept (fun _ _ => rfl) henv
  | tcp => exact keeps_streamAccept (fun _ _ => rfl) henv
  | udp => exact Keeps.refl k none

theorem keeps_destroy : Keeps k t.fd (t.destroy k) none := by
  have hclose := keeps_closeSock (t := t) (k := k)
  rw [fd_closeSock] at hclose
  refine hclose.trans (.of_fds ?_ ?_) <;>
  · simp only [destroy]
    split_ifs <;> rfl

end SockTransport

/-! ## Runs -/

namespace Sockets

/-- What every call keeps. -/
structure Inv (s : Sockets) : Prop where
  owners : Owners s.kernel.fds s.held
  strays : s.kernel.strays = 0
  fresh : ∀ h, s.next ≤ h → s.transports h = none

variable {s : Sockets}

theorem Inv.owned (h : s.Inv) : s.Owned := by
  refine ⟨h.owners, h.strays, fun hnone => ?_⟩
  rw [Finset.eq_empty_iff_forall_notMem]
  intro fd hfd
  obtain ⟨i, hi⟩ := (h.owners.mem_iff fd).1 hfd
  rw [held, hnone] at hi
  cases hi

theorem bind_update {α : Type*} (g : SockTransport → Option α) (i : Nat)
    (t : Option SockTransport) :
    (fun h => (Function.update s.transports i t h).bind g) =
      Function.update (fun h => (s.transports h).bind g) i (t.bind g) := by
  funext h
  by_cases hi : h = i
  · subst hi
    rw [Function.update_self, Function.update_self]
  · rw [Function.update_of_ne hi, Function.update_of_ne hi]

theorem Inv.on (h : s.Inv) {i : Nat} {f : SockTransport → Kernel × SockTransport}
    (hf : ∀ t, s.transports i = some t → Keeps s.kernel t.fd (f t).1 (f t).2.fd) :
    (s.on i f).Inv := by
  unfold Sockets.on
  cases ht : s.transports i with
  | none => exact h
  | some t =>
    obtain ⟨hown, hs⟩ := hf t ht s.held i (by rw [held, ht]; rfl) h.owners
    refine ⟨?_, hs.trans h.strays, fun j hj => ?_⟩
    · show Owners (f t).1.fds fun j => (Function.update s.transports i _ j).bind SockTransport.fd
      rw [bind_update]
      exact hown
    · have hne : j ≠ i := by
        rintro rfl
        rw [h.fresh j hj] at ht
        cases ht
      exact (Function.update_of_ne hne ..).trans (h.fresh j hj)

theorem Inv.add (h : s.Inv) {out : Kernel × Option SockTransport}
    (hout : Keeps s.kernel none out.1 (out.2.bind SockTransport.fd)) : (s.add out).Inv := by
  obtain ⟨hown, hs⟩ := hout s.held s.next (by rw [held, h.fresh _ le_rfl]; rfl) h.owners
  unfold Sockets.add
  rcases out with ⟨k, _ | t⟩
  · refine ⟨?_, hs.trans h.strays, h.fresh⟩
    rw [Option.bind_none, Function.update_eq_self_iff.2] at hown
    · exact hown
    · rw [held, h.fresh _ le_rfl]
      rfl
  · refine ⟨?_, hs.trans h.strays, fun j hj => ?_⟩
    · show Owners k.fds fun j => (Function.update s.transports s.next _ j).bind SockTransport.fd
      rw [bind_update]
      exact hown
    · have hj' : s.next < j := hj
      exact (Function.update_of_ne (Nat.ne_of_gt hj') ..).trans (h.fresh j (Nat.le_of_lt hj'))

/-- **Every call keeps descriptors with their owners.** -/
theorem Inv.step (s : Sockets) (op : SockOp) (h : s.Inv) (hfair : s.Fair op) : (s.step op).Inv := by
  -- A call that changes other fields of a transport.
  have hsame {t t' : SockTransport} (hfd : t'.sockFd = t.sockFd) :
      Keeps s.kernel t.fd s.kernel t'.fd := by
    rw [SockTransport.fd_congr hfd]
    exact Keeps.refl _ _
  cases op with
  | create type sendTimeoutMs mem sock => exact h.add (SockTransport.keeps_create hfair)
  | bind i a => exact h.on fun t _ => hsame (SockTransport.sockFd_bind a)
  | connect i a timeoutMs env => exact h.on fun t ht => SockTransport.keeps_connect (hfair t ht)
  | disconnect i => exact h.on fun t _ => SockTransport.keeps_closeSock
  | send i len r => exact h.on fun t _ => hsame (SockTransport.sockFd_send len r)
  | recv i size r => exact h.on fun t _ => hsame (SockTransport.sockFd_recv size r)
  | listen i env => exact h.on fun t _ => SockTransport.keeps_listen
  | accept i timeoutMs env =>
    simp only [Sockets.step]
    cases s.transports i with
    | none => exact h
    | some t => exact h.add (SockTransport.keeps_accept hfair)
  | destroy i =>
    simp only [Sockets.step]
    cases ht : s.transports i with
    | none => exact h
    | some t =>
      obtain ⟨hown, hs⟩ :=
        SockTransport.keeps_destroy (t := t) s.held i (by rw [held, ht]; rfl) h.owners
      refine ⟨?_, hs.trans h.strays, fun j hj => ?_⟩
      · show Owners (t.destroy s.kernel).fds fun j =>
          (Function.update s.transports i none j).bind SockTransport.fd
        rw [bind_update]
        exact hown
      · by_cases hji : j = i
        · subst hji
          exact Function.update_self ..
        · exact (Function.update_of_ne hji ..).trans (h.fresh j hj)

end Sockets

/-- **Descriptors have one owner each.** Whatever transports of the three kinds are created,
connected, disconnected, listened and accepted on and destroyed, in any order, with any failures of
memory and of calls of the kernel: every open descriptor is held by exactly one transport that
lives, no descriptor is closed that is not open, and none is open when no transport is left. -/
theorem sockets_owned (files : Bytes → Option FileKind) (ops : List SockOp)
    (hfair : Runs.EachStep Sockets.step Sockets.Fair (.init files) ops) :
    Runs.Always Sockets.step Sockets.Owned (.init files) ops :=
  Runs.always_of_invariant Sockets.Inv.step (fun _ h => h.owned)
    ⟨Owners.empty, rfl, fun _ _ => rfl⟩ hfair

/-- A TCP transport listens and accepts a connection, whose transport then fails to connect
elsewhere; both are destroyed. -/
theorem sockets_owned_accept :
    Runs.Always Sockets.step Sockets.Owned (.init fun _ => none)
      [.create .tcp 0 true (some 3), .listen 0 ⟨true, true⟩,
        .accept 0 100 ⟨true, some (4, .inet 1 80), true, some 5⟩,
        .connect 1 ⟨.tcp, .inet 2 80, []⟩ 0 ⟨some 4, .inProgress, true, true⟩,
        .destroy 0, .destroy 1] := by
  refine sockets_owned _ _ ?_
  simp only [Runs.eachStep_cons, Runs.eachStep_nil, and_true]
  decide

end Ssn
