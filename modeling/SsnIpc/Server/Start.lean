import SsnIpc.Transport.Address

/-!
# The name of a server and the address it binds

`ssn_server_create` copies the name into 64 bytes; `ssn_server_start` puts `unix://` in front when
the copy holds no `://`, parses the result and binds the address it gets. A client hands its string
to the parser as it is.

**Theorem (`bound_iff_readWhole`).** A server that starts listens where a client with the whole
name connects to exactly when the copy lost nothing that matters: the name has at most 63 bytes, or
it is an address with a port and `atoi` reads the same port in its first 63 bytes (`ReadWhole`).

A longer path is never the same path (`parseUnix_append_ne`); a longer address with a port has the
same host, since the copy parsed up to the port.
-/

namespace Ssn

open ByteMem CString

/-! ## The model -/

/-- `SRV_NAME_LEN`. -/
def srvNameLen : Nat := 64

/-- What `stat` says of a path. -/
inductive FileStat
  | socket
  | otherFile
  /-- `ENOENT`. -/
  | absent
  | failed
  deriving DecidableEq

/-- What the operating system answers while a server starts: `stat` of the server's name, the
socket that a transport is created with, `stat` of the socket's path, `bind` and `listen`. -/
structure StartNet where
  nameStat : FileStat
  socket : Bool
  pathStat : FileStat
  bind : Bool
  listen : Bool

/-- What of an `ssn_server_t` its creation and start are about: the name and, once it listens, what
its transport is bound to. -/
structure NamedServer where
  srvName : Bytes
  valid : Bool
  bound : Option Endpoint
  deriving DecidableEq

/-- `ssn_transport_create`: there is no creator for the last two types. -/
def transportCreate (type : TransportType) (socket : Bool) : Bool :=
  match type with
  | .tls | .dtls => false
  | _ => socket

/-- `ssn_transport_listen`, on a transport that `ssn_transport_bind` has given its address: a stale
socket file is removed, any other file is left and the call fails. -/
def transportListen (type : TransportType) (net : StartNet) : Bool :=
  match type with
  | .unix => net.pathStat ≠ .otherFile && net.bind && net.listen
  | .tcp | .tcp6 => net.bind && net.listen
  | .udp | .udp6 => net.bind
  | .tls | .dtls => false

/-- The string with `unix://` in front, unless it holds a `://`. -/
def qualify (name : Bytes) : Bytes :=
  if (strstr schemeSep name).isSome then name else unixScheme ++ schemeSep ++ name

namespace NamedServer

/-- `ssn_server_create` and `ssn_server_create_with_options`; `resources` says whether memory,
mutex, event pair and protocol instances could be had. -/
def create (resources : Bool) (name : Option Bytes) : Option NamedServer :=
  match name with
  | none => none
  | some name =>
    if resources then some ⟨copyBounded srvNameLen name, true, none⟩ else none

/-- The check of `ssn_server_start` for a file in the way. It looks at the name and not at the
path. -/
def pathFree (type : TransportType) (net : StartNet) : Bool :=
  type ≠ .unix || net.nameStat == .socket || net.nameStat == .absent

/-- `ssn_server_start`. -/
def start (r : Resolver) (net : StartNet) (s : NamedServer) : NamedServer × Bool :=
  if s.valid then
    match addressParse r (copyBounded 256 (qualify s.srvName)) with
    | none => (s, false)
    | some a =>
      if pathFree a.type net then
        if transportCreate a.type net.socket && transportListen a.type net then
          ({ s with bound := some a.endpoint }, true)
        else ({ s with bound := none }, false)
      else (s, false)
  else (s, false)

end NamedServer

/-- Where `ssn_client_connect` connects its transport to, if it comes so far. -/
def connectTarget (r : Resolver) (socket : Bool) (ipcPath : Bytes) : Option Endpoint :=
  match addressParse r ipcPath with
  | none => none
  | some a => if transportCreate a.type socket then some a.endpoint else none

/-! ## The address -/

/-- The name fits, or its port does. -/
def ReadWhole (name : Bytes) : Prop :=
  name.length < srvNameLen ∨
    ∃ port, portNumber (copyBounded srvNameLen name) = some port ∧ portNumber name = some port

theorem addressParse_qualify_of_none {r : Resolver} {name : Bytes}
    (h : strstr schemeSep name = none) : addressParse r (qualify name) = parseUnix name := by
  have hq : qualify name = unixScheme ++ schemeSep ++ name := by simp [qualify, h]
  rw [hq, addressParse_of_strstr (strstr_qualified name)]
  rfl

theorem qualify_of_some {name : Bytes} {found : Bytes × Bytes}
    (h : strstr schemeSep name = some found) : qualify name = name := by
  simp [qualify, h]

section Append

variable {r : Resolver} {name more : Bytes} {e : Endpoint}

theorem addressParse_append_of_some {protocol rest : Bytes}
    (hname : strstr schemeSep name = some (protocol, rest))
    (h : (addressParse r (qualify name)).map Address.endpoint = some e) (hmore : more ≠ [])
    (hlen : name.length < 107) :
    (addressParse r (qualify (name ++ more))).map Address.endpoint = some e ↔
      ∃ port, portNumber name = some port ∧ portNumber (name ++ more) = some port := by
  have hlong := strstr_append hname more
  have hrest : rest.length < 107 := by
    have := congrArg List.length (eq_of_strstr hname)
    simp only [List.length_append] at this
    omega
  rw [qualify_of_some hname, addressParse_of_strstr hname] at h
  rw [qualify_of_some hlong, addressParse_of_strstr hlong]
  split_ifs at h ⊢ with hproto
  · cases h
  rw [parseRest_append h hmore hrest]
  simp only [portNumber, hname, hlong]
  constructor
  · rintro ⟨text, htext, heq⟩
    exact ⟨atoi text, by simp [htext], by simp [portText_append htext more, heq]⟩
  · rintro ⟨port, hport, hport'⟩
    obtain ⟨text, htext, rfl⟩ := Option.map_eq_some_iff.1 hport
    rw [portText_append htext more] at hport'
    exact ⟨text, htext, (Option.some.inj hport').symm⟩

theorem addressParse_append_of_none (hname : strstr schemeSep name = none)
    (h : (addressParse r (qualify name)).map Address.endpoint = some e) (hmore : more ≠ [])
    (hlow : 34 ≤ name.length) (hlen : name.length < 107) :
    (addressParse r (qualify (name ++ more))).map Address.endpoint ≠ some e := by
  rw [addressParse_qualify_of_none hname] at h
  cases hlong : strstr schemeSep (name ++ more) with
  | none =>
    rw [addressParse_qualify_of_none hlong]
    exact parseUnix_append_ne h hmore hlen
  | some found =>
    -- The whole name has a scheme after all, one too long.
    obtain ⟨protocol, rest⟩ := found
    have hproto := length_lt_of_strstr_append hname hlong
    have hfar : 32 ≤ protocol.length := by
      have : schemeSep.length = 3 := rfl
      omega
    rw [qualify_of_some hlong, addressParse_of_strstr hlong, if_pos hfar]
    simp

theorem addressParse_append_iff
    (h : (addressParse r (qualify name)).map Address.endpoint = some e) (hmore : more ≠ [])
    (hlow : 34 ≤ name.length) (hlen : name.length < 107) :
    (addressParse r (qualify (name ++ more))).map Address.endpoint = some e ↔
      ∃ port, portNumber name = some port ∧ portNumber (name ++ more) = some port := by
  cases hname : strstr schemeSep name with
  | some found => exact addressParse_append_of_some hname h hmore hlen
  | none =>
    refine iff_of_false (addressParse_append_of_none hname h hmore hlow hlen) ?_
    simp [portNumber, hname]

end Append

/-! ## Starting a server -/

theorem length_qualify_le (name : Bytes) : (qualify name).length ≤ 7 + name.length := by
  unfold qualify
  split_ifs
  · omega
  · simp only [unixScheme, schemeSep, List.length_append, List.length_cons, List.length_nil]
    omega

/-- The buffer of `ssn_server_start` holds the name with its scheme. -/
theorem copyBounded_qualify {name : Bytes} (h : name.length < srvNameLen) :
    copyBounded 256 (qualify name) = qualify name := by
  apply List.take_of_length_le
  have hle := length_qualify_le name
  have : srvNameLen = 64 := rfl
  omega

theorem length_copyBounded_lt (name : Bytes) :
    (copyBounded srvNameLen name).length < srvNameLen := by
  simp only [copyBounded, List.length_take, srvNameLen]
  omega

/-- A server that starts is bound to what its copy of the name parses to. -/
theorem NamedServer.bound_of_start {r : Resolver} {net : StartNet} {resources : Bool}
    {name : Bytes} {s s' : NamedServer} (hcreate : create resources (some name) = some s)
    (hstart : start r net s = (s', true)) :
    ∃ e, s'.bound = some e ∧
      (addressParse r (qualify (copyBounded srvNameLen name))).map Address.endpoint = some e := by
  simp only [create] at hcreate
  split_ifs at hcreate
  obtain rfl := Option.some.inj hcreate
  simp only [start, copyBounded_qualify (length_copyBounded_lt name), if_true] at hstart
  cases hparse : addressParse r (qualify (copyBounded srvNameLen name)) with
  | none => simp [hparse] at hstart
  | some a =>
    simp only [hparse] at hstart
    split_ifs at hstart
    · cases hstart
      exact ⟨a.endpoint, rfl, rfl⟩
    all_goals cases hstart

/-- There is a creator for every type that the parser gives. -/
theorem transportCreate_of_parse {r : Resolver} {addressStr : Bytes} {a : Address}
    (h : addressParse r addressStr = some a) : transportCreate a.type true = true := by
  unfold addressParse at h
  split at h
  · split_ifs at h
    unfold parseRest at h
    split_ifs at h
    · rw [type_printAddress h]; rfl
    · rw [type_parseInet h]; rfl
    · rw [type_parseInet h]; rfl
    · rw [type_parseInet6 h]; rfl
    · rw [type_parseInet6 h]; rfl
  · cases h

theorem connectTarget_eq (r : Resolver) (ipcPath : Bytes) :
    connectTarget r true ipcPath = (addressParse r ipcPath).map Address.endpoint := by
  unfold connectTarget
  cases hparse : addressParse r ipcPath with
  | none => rfl
  | some a => simp [transportCreate_of_parse hparse]

/-- **A server and a client read a name alike exactly when the server's copy of it loses nothing
that matters.** -/
theorem bound_iff_readWhole (r : Resolver) (net : StartNet) (resources : Bool) (name : Bytes)
    (s s' : NamedServer) (hcreate : NamedServer.create resources (some name) = some s)
    (hstart : s.start r net = (s', true)) :
    (s'.bound = (addressParse r (qualify name)).map Address.endpoint ∧
        connectTarget r true (qualify name) = s'.bound) ↔
      ReadWhole name := by
  obtain ⟨e, hbound, hparse⟩ := NamedServer.bound_of_start hcreate hstart
  rw [connectTarget_eq, hbound, eq_comm, and_self]
  unfold ReadWhole
  by_cases hshort : name.length < srvNameLen
  · have hcopy : copyBounded srvNameLen name = name := by
      apply List.take_of_length_le
      omega
    rw [hcopy] at hparse
    simp [hshort, hparse]
  · -- The copy is the first 63 bytes, and the name goes on.
    have hlen : (copyBounded srvNameLen name).length = 63 := by
      simp only [copyBounded, List.length_take, srvNameLen] at hshort ⊢
      omega
    have hmore : name.drop 63 ≠ [] := by
      apply List.ne_nil_of_length_pos
      simp only [List.length_drop, srvNameLen] at hshort ⊢
      omega
    have hname : copyBounded srvNameLen name ++ name.drop 63 = name := List.take_append_drop 63 name
    have hiff := addressParse_append_iff hparse hmore (by omega) (by omega)
    rw [hname] at hiff
    simp only [hshort, false_or]
    exact hiff

/-! ## Two names -/

/-- A system on which everything works. -/
def freeNet : StartNet := ⟨.absent, true, .absent, true, true⟩

/-- `/s`. -/
def shortName : Bytes := [0x2f, 0x73]

theorem shortName_bound :
    (NamedServer.create true (some shortName) = some ⟨shortName, true, none⟩ ∧
        NamedServer.start localResolver freeNet ⟨shortName, true, none⟩ =
          (⟨shortName, true, some ⟨.unix, .unix shortName⟩⟩, true)) ∧
      some ⟨.unix, .unix shortName⟩ =
        (addressParse localResolver (qualify shortName)).map Address.endpoint ∧
      connectTarget localResolver true (qualify shortName) =
        some ⟨.unix, .unix shortName⟩ :=
  ⟨⟨by decide, by decide⟩,
    (bound_iff_readWhole localResolver freeNet true shortName
      ⟨shortName, true, none⟩ ⟨shortName, true, some ⟨.unix, .unix shortName⟩⟩
      (by decide) (by decide)).2 (Or.inl (by decide))⟩

/-- `tcp://`, a host of 54 bytes, and `:8080`: 65 bytes. -/
def longName : Bytes :=
  tcpScheme ++ schemeSep ++ List.replicate 54 0x68 ++ [0x3a, 0x38, 0x30, 0x38, 0x30]

/-- The server takes port 80, where a client with its name looks for port 8080. -/
theorem longName_other_port :
    ∃ s s', NamedServer.create true (some longName) = some s ∧
      s.start localResolver freeNet = (s', true) ∧
      s'.bound = some ⟨.tcp, .inet 0x7f000001 80⟩ ∧
      (addressParse localResolver (qualify longName)).map Address.endpoint =
        some ⟨.tcp, .inet 0x7f000001 8080⟩ ∧
      connectTarget localResolver true (qualify longName) ≠ s'.bound := by
  refine ⟨⟨copyBounded srvNameLen longName, true, none⟩,
    ⟨copyBounded srvNameLen longName, true, some ⟨.tcp, .inet 0x7f000001 80⟩⟩, ?_⟩
  decide +kernel

end Ssn
