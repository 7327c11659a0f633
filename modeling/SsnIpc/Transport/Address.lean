import SsnIpc.Lib.ByteMem
import SsnIpc.Lib.CString

/-!
# Address strings

`ssn_address_parse` reads `unix://path`, `tcp://host:port`, `udp://host:port`,
`tcp6://[host]:port` and `udp6://[host]:port`. On its way the string is copied into buffers of
several sizes; those of a path cut it, those of a host refuse it.

**What a string and a longer one have in common (`parseRest_append`).** When the shorter one
parses, so does everything up to its port; the two then give the same socket address exactly when
they are addresses with a port and `atoi` reads the same number in both. A longer path is always
another path, as long as `sun_path` holds it.

`atoi` reads what it can and ignores the rest, so a port that lost its last digits is a port still.
-/

namespace Ssn

open ByteMem CString

/-! ## The model -/

/-- `ssn_transport_type_t`. -/
inductive TransportType
  | unix
  | tcp
  | tcp6
  | udp
  | udp6
  | tls
  | dtls
  deriving DecidableEq, Repr

/-- The socket address of an `ssn_address_t`; of `sun_path` the string before the NUL. -/
inductive SockAddr
  | unix (sunPath : Bytes)
  | inet (addr : BitVec 32) (port : UInt16)
  | inet6 (addr : BitVec 128) (port : UInt16)
  deriving DecidableEq

/-- `ssn_address_t`. -/
structure Address where
  type : TransportType
  addr : SockAddr
  addressStr : Bytes
  deriving DecidableEq

/-- Name resolution, a function of the host: `inet_pton` for both families, `gethostbyname`. -/
structure Resolver where
  inetPton : Bytes → Option (BitVec 32)
  inetPton6 : Bytes → Option (BitVec 128)
  getHostByName : Bytes → Option (BitVec 32)

/-- `SSN_TRANSPORT_MAX_ADDRESS_LEN`. -/
def maxAddressLen : Nat := 256

/-- `://`. -/
def schemeSep : Bytes := [0x3a, 0x2f, 0x2f]

/-- `unix`. -/
def unixScheme : Bytes := [0x75, 0x6e, 0x69, 0x78]

/-- `tcp`. -/
def tcpScheme : Bytes := [0x74, 0x63, 0x70]

/-- `udp`. -/
def udpScheme : Bytes := [0x75, 0x64, 0x70]

/-- `tcp6`. -/
def tcp6Scheme : Bytes := [0x74, 0x63, 0x70, 0x36]

/-- `udp6`. -/
def udp6Scheme : Bytes := [0x75, 0x64, 0x70, 0x36]

/-- The last step of every branch: `address_str` is printed, and must fit. -/
def printAddress (type : TransportType) (addr : SockAddr) (str : Bytes) : Option Address :=
  if str.length < maxAddressLen then some ⟨type, addr, str⟩ else none

/-- The branch `unix://`: `path` has 256 bytes, `sun_path` 108. -/
def parseUnix (rest : Bytes) : Option Address :=
  let path := copyBounded 256 rest
  printAddress .unix (.unix (copyBounded 108 path)) (unixScheme ++ schemeSep ++ path)

/-- The host and the text of the port, where a colon parts them. -/
def splitColon (rest : Bytes) : Option (Bytes × Bytes) := strchr 0x3a rest

/-- The host and the text of the port, where the host stands in brackets and is not empty. -/
def splitBrackets : Bytes → Option (Bytes × Bytes)
  | 0x5b :: rest =>
    match strchr 0x5d rest with
    | some (host, 0x3a :: text) => if host = [] then none else some (host, text)
    | _ => none
  | _ => none

/-- The check of a port; 0 and what `atoi` cannot read are no ports. -/
def portOf (text : Bytes) : Option UInt16 :=
  let port := atoi text
  if port ≤ 0 ∨ port > 65535 then none else some port.toNat.toUInt16

/-- What the branches with a port share, from its text on: `host` has 256 bytes; the string is
printed from `pre`, the host, `post` and the port. -/
def parseHostPort (type : TransportType) (lookup : Bytes → Option (UInt16 → SockAddr))
    (pre post host text : Bytes) : Option Address :=
  if 256 ≤ host.length then none
  else
    match portOf text, lookup host with
    | some port, some addr =>
      printAddress type (addr port) (pre ++ host ++ post ++ decimal port.toNat)
    | _, _ => none

namespace Resolver

/-- A host of `tcp` and `udp`: an address, or else a name. -/
def lookup (r : Resolver) (host : Bytes) : Option (UInt16 → SockAddr) :=
  ((r.inetPton host).or (r.getHostByName host)).map .inet

/-- A host of `tcp6` and `udp6`: addresses only. -/
def lookup6 (r : Resolver) (host : Bytes) : Option (UInt16 → SockAddr) :=
  (r.inetPton6 host).map .inet6

end Resolver

/-- The branches `tcp://` and `udp://`. -/
def parseInet (r : Resolver) (type : TransportType) (scheme rest : Bytes) : Option Address :=
  match splitColon rest with
  | some (host, text) => parseHostPort type r.lookup (scheme ++ schemeSep) [0x3a] host text
  | none => none

/-- The branches `tcp6://` and `udp6://`. -/
def parseInet6 (r : Resolver) (type : TransportType) (scheme rest : Bytes) : Option Address :=
  match splitBrackets rest with
  | some (host, text) =>
    parseHostPort type r.lookup6 (scheme ++ schemeSep ++ [0x5b]) [0x5d, 0x3a] host text
  | none => none

/-- The branches of `ssn_address_parse`. -/
def parseRest (r : Resolver) (protocol rest : Bytes) : Option Address :=
  if protocol = unixScheme then parseUnix rest
  else if protocol = tcpScheme then parseInet r .tcp tcpScheme rest
  else if protocol = udpScheme then parseInet r .udp udpScheme rest
  else if protocol = tcp6Scheme then parseInet6 r .tcp6 tcp6Scheme rest
  else if protocol = udp6Scheme then parseInet6 r .udp6 udp6Scheme rest
  else none

/-- `ssn_address_parse`. -/
def addressParse (r : Resolver) (addressStr : Bytes) : Option Address :=
  match strstr schemeSep addressStr with
  | some (protocol, rest) => if 32 ≤ protocol.length then none else parseRest r protocol rest
  | none => none

/-- A transport type and a socket address: where a server listens, or a client connects to. -/
structure Endpoint where
  type : TransportType
  addr : SockAddr
  deriving DecidableEq

/-- The part of an address that transports use. -/
def Address.endpoint (a : Address) : Endpoint := ⟨a.type, a.addr⟩

/-! ## Schemes -/

theorem strstr_qualified (name : Bytes) :
    strstr schemeSep (unixScheme ++ schemeSep ++ name) = some (unixScheme, name) := by
  have hpre : strstr schemeSep (unixScheme ++ schemeSep) = some (unixScheme, []) := by decide
  exact strstr_append hpre name

theorem addressParse_of_strstr {r : Resolver} {s protocol rest : Bytes}
    (h : strstr schemeSep s = some (protocol, rest)) :
    addressParse r s = if 32 ≤ protocol.length then none else parseRest r protocol rest := by
  simp [addressParse, h]

theorem addressParse_nil (r : Resolver) : (addressParse r []).isSome = false := rfl

/-- A resolver that knows one address, by any name. -/
def localResolver : Resolver where
  inetPton := fun _ => none
  inetPton6 := fun _ => none
  getHostByName := fun _ => some 0x7f000001

/-! ## Ports -/

def portText (protocol rest : Bytes) : Option Bytes :=
  if protocol = tcpScheme ∨ protocol = udpScheme then (splitColon rest).map Prod.snd
  else if protocol = tcp6Scheme ∨ protocol = udp6Scheme then (splitBrackets rest).map Prod.snd
  else none

/-- The number `atoi` reads as the port of an address string. -/
def portNumber (addressStr : Bytes) : Option Int :=
  match strstr schemeSep addressStr with
  | some (protocol, rest) => (portText protocol rest).map atoi
  | none => none

theorem portOf_eq_iff {text text' : Bytes} {port : UInt16} (h : portOf text = some port) :
    portOf text' = some port ↔ atoi text = atoi text' := by
  constructor
  · intro h'
    simp only [portOf] at h h'
    split_ifs at h h' with hr hr'
    have hport : (atoi text).toNat.toUInt16 = (atoi text').toNat.toUInt16 :=
      Option.some.inj (h.trans h'.symm)
    have hnat := congrArg UInt16.toNat hport
    simp only [Nat.toUInt16, UInt16.toNat_ofNat'] at hnat
    omega
  · intro heq
    simpa [portOf, heq] using h

theorem endpoint_printAddress {type : TransportType} {addr : SockAddr} {str : Bytes} {e : Endpoint}
    (h : (printAddress type addr str).map Address.endpoint = some e) : e = ⟨type, addr⟩ := by
  unfold printAddress at h
  split_ifs at h
  · exact (Option.some.inj h).symm
  · cases h

theorem type_printAddress {type : TransportType} {addr : SockAddr} {str : Bytes} {a : Address}
    (h : printAddress type addr str = some a) : a.type = type := by
  have he : (printAddress type addr str).map Address.endpoint = some a.endpoint := by simp [h]
  exact congrArg Endpoint.type (endpoint_printAddress he)

theorem type_parseHostPort {type : TransportType} {lookup : Bytes → Option (UInt16 → SockAddr)}
    {pre post host text : Bytes} {a : Address}
    (h : parseHostPort type lookup pre post host text = some a) : a.type = type := by
  unfold parseHostPort at h
  split_ifs at h
  split at h
  · exact type_printAddress h
  · cases h

theorem type_parseInet {r : Resolver} {type : TransportType} {scheme rest : Bytes} {a : Address}
    (h : parseInet r type scheme rest = some a) : a.type = type := by
  unfold parseInet at h
  split at h
  · exact type_parseHostPort h
  · cases h

theorem type_parseInet6 {r : Resolver} {type : TransportType} {scheme rest : Bytes} {a : Address}
    (h : parseInet6 r type scheme rest = some a) : a.type = type := by
  unfold parseInet6 at h
  split at h
  · exact type_parseHostPort h
  · cases h

/-- Two addresses of one host are the same endpoint exactly when their ports are. -/
theorem parseHostPort_eq_iff {type : TransportType} {lookup : Bytes → Option (UInt16 → SockAddr)}
    (hinj : ∀ host addr, lookup host = some addr → Function.Injective addr)
    {pre post host text : Bytes} (text' : Bytes) {e : Endpoint}
    (h : (parseHostPort type lookup pre post host text).map Address.endpoint = some e) :
    (parseHostPort type lookup pre post host text').map Address.endpoint = some e ↔
      atoi text = atoi text' := by
  unfold parseHostPort at h ⊢
  split_ifs at h ⊢ with hlen
  · cases h
  cases hport : portOf text with
  | none => simp [hport] at h
  | some port =>
    cases haddr : lookup host with
    | none => simp [hport, haddr] at h
    | some addr =>
      simp only [hport, haddr] at h ⊢
      rw [← portOf_eq_iff hport]
      have he := endpoint_printAddress h
      cases hport' : portOf text' with
      | none => simp
      | some port' =>
        constructor
        · intro h'
          have heq : addr port' = addr port :=
            congrArg Endpoint.addr ((endpoint_printAddress h').symm.trans he)
          rw [hinj host addr haddr heq]
        · intro heq
          obtain rfl := Option.some.inj heq
          exact h

theorem Resolver.lookup_injective (r : Resolver) (host : Bytes) (addr : UInt16 → SockAddr)
    (h : r.lookup host = some addr) : Function.Injective addr := by
  obtain ⟨ip, -, rfl⟩ := Option.map_eq_some_iff.1 h
  intro port port' heq
  exact (SockAddr.inet.inj heq).2

theorem Resolver.lookup6_injective (r : Resolver) (host : Bytes) (addr : UInt16 → SockAddr)
    (h : r.lookup6 host = some addr) : Function.Injective addr := by
  obtain ⟨ip, -, rfl⟩ := Option.map_eq_some_iff.1 h
  intro port port' heq
  exact (SockAddr.inet6.inj heq).2

/-! ## A string and a longer one -/

theorem splitColon_append {rest host text : Bytes} (h : splitColon rest = some (host, text))
    (more : Bytes) : splitColon (rest ++ more) = some (host, text ++ more) :=
  strstr_append h more

theorem splitBrackets_append {rest host text : Bytes} (h : splitBrackets rest = some (host, text))
    (more : Bytes) : splitBrackets (rest ++ more) = some (host, text ++ more) := by
  unfold splitBrackets at h
  split at h
  · rename_i rest
    split at h
    · rename_i host' text' hfound
      split_ifs at h with hhost
      cases h
      have hlong := strstr_append hfound more
      simp [splitBrackets, strchr, hlong, hhost]
    · cases h
  · cases h

/-- A path that `sun_path` holds is another one when it goes on. -/
theorem parseUnix_append_ne {rest more : Bytes} {e : Endpoint}
    (h : (parseUnix rest).map Address.endpoint = some e) (hmore : more ≠ [])
    (hlen : rest.length < 107) : (parseUnix (rest ++ more)).map Address.endpoint ≠ some e := by
  intro h'
  have heq := (endpoint_printAddress h).symm.trans (endpoint_printAddress h')
  have hpath := congrArg List.length (SockAddr.unix.inj (congrArg Endpoint.addr heq))
  have hpos := List.length_pos_iff.2 hmore
  simp only [copyBounded, List.length_take, List.length_append] at hpath
  omega

theorem parseInet_append {r : Resolver} {type : TransportType} {scheme rest more : Bytes}
    {e : Endpoint} (h : (parseInet r type scheme rest).map Address.endpoint = some e) :
    (parseInet r type scheme (rest ++ more)).map Address.endpoint = some e ↔
      ∃ text, (splitColon rest).map Prod.snd = some text ∧ atoi text = atoi (text ++ more) := by
  unfold parseInet at h ⊢
  cases hsplit : splitColon rest with
  | none => simp [hsplit] at h
  | some found =>
    obtain ⟨host, text⟩ := found
    simp only [hsplit] at h
    simp only [splitColon_append hsplit more]
    rw [parseHostPort_eq_iff r.lookup_injective (text ++ more) h]
    simp

theorem parseInet6_append {r : Resolver} {type : TransportType} {scheme rest more : Bytes}
    {e : Endpoint} (h : (parseInet6 r type scheme rest).map Address.endpoint = some e) :
    (parseInet6 r type scheme (rest ++ more)).map Address.endpoint = some e ↔
      ∃ text, (splitBrackets rest).map Prod.snd = some text ∧ atoi text = atoi (text ++ more) := by
  unfold parseInet6 at h ⊢
  cases hsplit : splitBrackets rest with
  | none => simp [hsplit] at h
  | some found =>
    obtain ⟨host, text⟩ := found
    simp only [hsplit] at h
    simp only [splitBrackets_append hsplit more]
    rw [parseHostPort_eq_iff r.lookup6_injective (text ++ more) h]
    simp

theorem parseRest_append {r : Resolver} {protocol rest more : Bytes} {e : Endpoint}
    (h : (parseRest r protocol rest).map Address.endpoint = some e) (hmore : more ≠ [])
    (hlen : rest.length < 107) :
    (parseRest r protocol (rest ++ more)).map Address.endpoint = some e ↔
      ∃ text, portText protocol rest = some text ∧ atoi text = atoi (text ++ more) := by
  by_cases hunix : protocol = unixScheme
  · subst hunix
    have hport : portText unixScheme rest = none := rfl
    have hne := parseUnix_append_ne (e := e) h hmore hlen
    simp only [hport]
    simpa [parseRest] using hne
  by_cases htcp : protocol = tcpScheme
  · subst htcp
    exact parseInet_append h
  by_cases hudp : protocol = udpScheme
  · subst hudp
    exact parseInet_append h
  by_cases htcp6 : protocol = tcp6Scheme
  · subst htcp6
    exact parseInet6_append h
  by_cases hudp6 : protocol = udp6Scheme
  · subst hudp6
    exact parseInet6_append h
  · simp [parseRest, hunix, htcp, hudp, htcp6, hudp6] at h

theorem portText_append {protocol rest text : Bytes} (h : portText protocol rest = some text)
    (more : Bytes) : portText protocol (rest ++ more) = some (text ++ more) := by
  unfold portText at h ⊢
  split_ifs at h ⊢
  · obtain ⟨⟨host, text⟩, hsplit, rfl⟩ := Option.map_eq_some_iff.1 h
    simp [splitColon_append hsplit more]
  · obtain ⟨⟨host, text⟩, hsplit, rfl⟩ := Option.map_eq_some_iff.1 h
    simp [splitBrackets_append hsplit more]

end Ssn
