import SsnIpc.Layers.NodeCalls
import SsnIpc.Server.CliTable
import SsnIpc.Server.Options
import SsnIpc.Server.Start

/-!
# The connection limit of a node

A node that is a server makes one in `ssn_node_start`: `get_server_options` fills in a
`server_options_t` on the stack, and `ssn_server_create_with_options` takes the settings from it.
`get_server_options` assigns the three timeouts and `ifname`, but not `max_connections`. So the
limit of the server is what the stack has there, or the default if that is 0.

**Theorem (`limit_iff`).** The server of a started node refuses connections as the configuration
says, in all its runs, exactly if the stack happens to have a value that comes to the same limit.

A server is filled with as many clients as it allows (`length_connections`), which shows any other
limit.
-/

namespace Ssn

open ByteMem CString

variable {β : Type}

/-! ## The model -/

/-- What of an `ssn_node_config_t` the start of a node reads. -/
structure NodeConfig where
  listenAddress : Bytes
  listenPort : UInt16
  capabilities : UInt32
  maxConnections : UInt32
  sendTimeoutMs : UInt32
  connTimeoutMs : UInt32
  idleTimeoutSec : UInt32

/-- `0.0.0.0`. -/
def anyAddress : Bytes := [0x30, 0x2e, 0x30, 0x2e, 0x30, 0x2e, 0x30]

/-- `/tmp/ipc_node.sock`. -/
def defaultSocketPath : Bytes :=
  [0x2f, 0x74, 0x6d, 0x70, 0x2f, 0x69, 0x70, 0x63, 0x5f, 0x6e, 0x6f, 0x64, 0x65, 0x2e, 0x73, 0x6f,
    0x63, 0x6b]

/-- `create_server_address`, into a buffer of `addrSize` bytes. -/
def createServerAddress (config : NodeConfig) (addrSize : Nat) : Bytes :=
  if 0 < config.listenPort then
    let host := if config.listenAddress = [] then anyAddress else config.listenAddress
    copyBounded addrSize
      (tcpScheme ++ schemeSep ++ host ++ [0x3a] ++ decimal config.listenPort.toNat)
  else
    let path := if config.listenAddress = [] then defaultSocketPath else config.listenAddress
    copyBounded addrSize (unixScheme ++ schemeSep ++ path)

/-- `get_server_options`, which writes into `options`. -/
def getServerOptions (config : NodeConfig) (options : ServerOptions) : ServerOptions :=
  { options with
    sendTimeoutMs := if 0 < config.sendTimeoutMs then config.sendTimeoutMs.toUInt64 else 5000
    connTimeoutMs := if 0 < config.connTimeoutMs then config.connTimeoutMs.toUInt64 else 3000
    idleTimeoutSec := if 0 < config.idleTimeoutSec then config.idleTimeoutSec.toUInt64 else 60 }

/-- What the start of a node meets: what is on the stack where `options` lies, whether the server
can be created, how names are resolved, and what the operating system answers. -/
structure NodeStartMeets where
  stack : ServerOptions
  resources : Bool
  resolver : Resolver
  net : StartNet

/-- A node and its server. -/
structure ServerNode (β : Type) where
  config : NodeConfig
  capabilities : UInt32
  state : NodeState
  server : Option (NamedServer × World β)

namespace ServerNode

/-- `ssn_node_create`. -/
def create (config : NodeConfig) : ServerNode β :=
  ⟨config, (NodeObj.create config.capabilities).capabilities, .stopped, none⟩

/-- The server of `ssn_node_start`, if it can be created and started. -/
def makeServer (config : NodeConfig) (m : NodeStartMeets) : Option (NamedServer × World β) :=
  let options := getServerOptions config m.stack
  match NamedServer.create m.resources (some (createServerAddress config 512)) with
  | none => none
  | some s =>
    let (s, ok) := s.start m.resolver m.net
    if ok then some (s, World.init (Server.createWithOptions (some options))) else none

/-- `ssn_node_start`. -/
def start (nd : ServerNode β) (m : NodeStartMeets) : ServerNode β × Bool :=
  match nd.state with
  | .active => (nd, true)
  | .error => (nd, false)
  | .stopped =>
    if nd.capabilities &&& capServer = 0 then ({ nd with state := .active }, true)
    else
      match makeServer nd.config m with
      | none => ({ nd with state := .error, server := none }, false)
      | some s => ({ nd with state := .active, server := some s }, true)

end ServerNode

/-- The limit that the configuration of a node asks for, where 0 is the default of servers. -/
def NodeConfig.connectionLimit (config : NodeConfig) : UInt32 :=
  if 0 < config.maxConnections then config.maxConnections else 1020

namespace World

variable {w : World β}

/-- No client is made for a new connection. -/
def Refuses (w : World β) (fd : Int) : Prop :=
  (w.handleNewConnection fd).server.clients.length = w.server.clients.length

/-! ## The limit of a server -/

/-- A new connection is refused at the limit, and gets a client below it. -/
theorem length_handleNewConnection (h : w.TableOk) (fd : Int) :
    (w.handleNewConnection fd).server.clients.length =
      if w.server.maxConnections.toNat ≤ w.server.clients.length then w.server.clients.length
      else w.server.clients.length + 1 := by
  have hall (w : World β) : w.idTable.all.length = w.server.clients.length := by
    rw [all_idTable, List.length_map]
  split_ifs with hmax
  · rw [handleNewConnection, if_pos hmax]
  · have hok : w.idTable.Ok w.server.maxConnections := by
      refine ⟨wf_idTable.2 h.wf, ?_⟩
      rw [hall]
      exact Nat.le_of_not_le hmax
    rw [← hall, idTable_handleNewConnection]
    rcases hok.connect_cases true with ⟨hno, -⟩ | ⟨-, -, id, ncid, -, -, -, hins⟩
    · rw [hall] at hno
      exact absurd (hno.resolve_right (by decide)) hmax
    · rw [hins, IdTable.length_insert, hall]

theorem refuses_iff (h : w.TableOk) (fd : Int) :
    w.Refuses fd ↔ w.server.maxConnections.toNat ≤ w.server.clients.length := by
  rw [Refuses, length_handleNewConnection h]
  split_ifs with hmax
  · simp [hmax]
  · simp [hmax]

theorem maxConnections_run (net : Nat → Nat → SendStep) (h : w.TableOk) (ops : List ServerOp) :
    (Runs.run (step net) w ops).TableOk ∧
      (Runs.run (step net) w ops).server.maxConnections = w.server.maxConnections := by
  have hstep : ∀ (v : World β) (op : ServerOp),
      v.TableOk ∧ v.server.maxConnections = w.server.maxConnections → True →
        (v.step net op).TableOk ∧
          (v.step net op).server.maxConnections = w.server.maxConnections := by
    rintro v op ⟨hv, hmax⟩ -
    exact ⟨tableOk_step net hv op,
      (maxConnections_of_settings (settings_step net hv op)).trans hmax⟩
  exact Runs.run_invariant hstep ⟨h, rfl⟩ Runs.eachStep_true

theorem length_connections (net : Nat → Nat → SendStep) (s : Server β) {k : Nat}
    (hk : k ≤ s.maxConnections.toNat) :
    (Runs.run (step net) (init s) (List.replicate k (.newConnection 0))).server.clients.length =
      k := by
  induction k with
  | zero => rfl
  | succ k ih =>
    have hlen := ih (Nat.le_of_succ_le hk)
    obtain ⟨hok, hmax⟩ :=
      maxConnections_run net (tableOk_init s) (List.replicate k (.newConnection 0))
    rw [List.replicate_succ', Runs.run_append]
    show (handleNewConnection (Runs.run (step net) (init s)
      (List.replicate k (.newConnection 0))) 0).server.clients.length = k + 1
    rw [length_handleNewConnection hok, hmax, hlen, if_neg]
    exact Nat.not_le.2 hk

/-- The limit of a server is the only one it keeps. -/
theorem refuses_limit_iff (net : Nat → Nat → SendStep) (s : Server β) (limit : UInt32) :
    (∀ ops fd, (Runs.run (step net) (init s) ops).Refuses fd ↔
        limit.toNat ≤ (Runs.run (step net) (init s) ops).server.clients.length) ↔
      s.maxConnections = limit := by
  have hrefuses (ops : List ServerOp) (fd : Int) :
      (Runs.run (step net) (init s) ops).Refuses fd ↔
        s.maxConnections.toNat ≤ (Runs.run (step net) (init s) ops).server.clients.length := by
    obtain ⟨hok, hmax⟩ := maxConnections_run net (tableOk_init s) ops
    rw [refuses_iff hok, hmax]
    rfl
  constructor
  · intro h
    -- compare both limits where the table has as many clients as the smaller one
    have hmin := h (List.replicate (min s.maxConnections.toNat limit.toNat) (.newConnection 0)) 0
    rw [hrefuses, length_connections net s (Nat.min_le_left _ _)] at hmin
    rw [← UInt32.toNat_inj]
    omega
  · rintro rfl
    exact hrefuses

end World

/-- The server of a node has its settings from what became of the options on the stack. -/
theorem ServerNode.world_makeServer {config : NodeConfig} {m : NodeStartMeets} {s : NamedServer}
    {w : World β} (h : makeServer config m = some (s, w)) :
    w = .init (Server.createWithOptions (some (getServerOptions config m.stack))) := by
  unfold makeServer at h
  split at h
  · cases h
  · dsimp only at h
    split_ifs at h
    exact (Prod.mk.inj (Option.some.inj h)).2.symm

/-- **The connection limit of a node:** take a node that is stopped and is to be a server, with any
configuration, and a start that succeeds. There is a server then. In all its runs it refuses a new
connection exactly if it has as many clients as the configuration allows (or 1020, if that is 0), if
and only if `max_connections` of the options was left on the stack as a value that comes to the same
limit. -/
theorem limit_iff (net : Nat → Nat → SendStep) (nd nd' : ServerNode β) (m : NodeStartMeets)
    (hstopped : nd.state = .stopped) (hserver : nd.capabilities &&& capServer ≠ 0)
    (hstart : nd.start m = (nd', true)) :
    ∃ s w, nd'.server = some (s, w) ∧
      ((∀ ops fd, (Runs.run (World.step net) w ops).Refuses fd ↔
          nd.config.connectionLimit.toNat ≤
            (Runs.run (World.step net) w ops).server.clients.length) ↔
        m.stack.connectionLimit = nd.config.connectionLimit) := by
  rw [ServerNode.start, hstopped] at hstart
  dsimp only at hstart
  rw [if_neg hserver] at hstart
  cases hmake : (ServerNode.makeServer nd.config m : Option (NamedServer × World β)) with
  | none =>
    rw [hmake] at hstart
    cases hstart
  | some made =>
    rw [hmake] at hstart
    cases hstart
    obtain ⟨s, w⟩ := made
    refine ⟨s, w, rfl, ?_⟩
    obtain rfl := ServerNode.world_makeServer hmake
    -- the options have the limit of the stack
    exact World.refuses_limit_iff net
      (Server.createWithOptions (some (getServerOptions nd.config m.stack))) _

/-- A node for one connection at a time. -/
def singleNode : ServerNode Unit := .create ⟨[0x2f, 0x73], 0, 0, 1, 0, 0, 0⟩

/-- A start that meets no trouble, where the stack has `n` for `max_connections`. -/
def stackHas (n : UInt32) : NodeStartMeets := ⟨⟨0, 0, 0, n⟩, true, localResolver, freeNet⟩

theorem singleNode_started (n : UInt32) : singleNode.start (stackHas n) =
    ((singleNode.start (stackHas n)).1, true) := rfl

theorem singleNode_lucky :
    ∃ s w, (singleNode.start (stackHas 1)).1.server = some (s, w) ∧
      ((∀ ops fd, (Runs.run (World.step acceptAll) w ops).Refuses fd ↔
          singleNode.config.connectionLimit.toNat ≤
            (Runs.run (World.step acceptAll) w ops).server.clients.length) ↔
        (stackHas 1).stack.connectionLimit = singleNode.config.connectionLimit) :=
  limit_iff acceptAll singleNode (singleNode.start (stackHas 1)).1 (stackHas 1) rfl (by decide)
    (singleNode_started 1)

/-- With a 0 on the stack the limit is 1020: two connections are taken. -/
theorem singleNode_two_clients :
    (singleNode.start (stackHas 0)).2 = true ∧
      ((singleNode.start (stackHas 0)).1.server.map fun p =>
        (Runs.run (World.step acceptAll) p.2
          [.newConnection 3, .newConnection 4]).server.clients.length) = some 2 ∧
      singleNode.config.connectionLimit = 1 := by
  decide +kernel

end Ssn
