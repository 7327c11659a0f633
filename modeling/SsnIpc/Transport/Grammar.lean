import SsnIpc.Transport.Address

/-!
# The grammar of address strings

The strings of the four schemes with a port have one shape: `scheme://`, the host between two
separators, and the text of the port. `addressParse_eq_some_iff` says what `ssn_address_parse`
makes of them.

**Theorem (`grammar_iff`).** A string of the grammar is accepted with its port. Other strings are
accepted exactly if `atoi` reads a port from a text that is none: it skips white space and a sign
before the digits, ignores everything behind them, and takes the low bits of huge numbers.

**Theorem (`addressParse_addressStr`).** What is printed into `address_str` is accepted again, with
the same result.

Where the C standard leaves `atoi` undefined (numbers that are no `int`), it is `strtol` here.
-/

namespace Ssn

open ByteMem CString

/-! ## The schemes with ports -/

/-- The schemes of addresses with a port. -/
inductive InetScheme
  | tcp
  | udp
  | tcp6
  | udp6
  deriving DecidableEq

def SockAddr.port : SockAddr → Option Nat
  | .unix _ => none
  | .inet _ port => some port.toNat
  | .inet6 _ port => some port.toNat

/-- The text of a port: decimal digits only, with a value from 1 to 65535. -/
structure IsPort (text : Bytes) (port : Nat) : Prop where
  isDigit : ∀ c ∈ text, isDigit c = true
  value : digits text = port
  pos : 1 ≤ port
  le : port ≤ 65535

namespace InetScheme

def text : InetScheme → Bytes
  | tcp => tcpScheme
  | udp => udpScheme
  | tcp6 => tcp6Scheme
  | udp6 => udp6Scheme

def type : InetScheme → TransportType
  | tcp => .tcp
  | udp => .udp
  | tcp6 => .tcp6
  | udp6 => .udp6

def opening : InetScheme → Bytes
  | tcp | udp => []
  | tcp6 | udp6 => [0x5b]

/-- What stands between the host and the port. -/
def closing : InetScheme → Bytes
  | tcp | udp => [0x3a]
  | tcp6 | udp6 => [0x5d, 0x3a]

/-- The hosts that can be told from what follows. -/
def HostOk : InetScheme → Bytes → Prop
  | tcp, host | udp, host => 0x3a ∉ host
  | tcp6, host | udp6, host => host ≠ [] ∧ 0x5d ∉ host

def lookup (r : Resolver) : InetScheme → Bytes → Option (UInt16 → SockAddr)
  | tcp | udp => r.lookup
  | tcp6 | udp6 => r.lookup6

/-- How the parser finds host and port. -/
def split : InetScheme → Bytes → Option (Bytes × Bytes)
  | tcp | udp => splitColon
  | tcp6 | udp6 => splitBrackets

/-- What stands behind `://`. -/
def hostPort (sch : InetScheme) (host text : Bytes) : Bytes :=
  sch.opening ++ host ++ sch.closing ++ text

def print (sch : InetScheme) (host text : Bytes) : Bytes :=
  sch.text ++ schemeSep ++ sch.hostPort host text

/-- The grammar of the addresses with a port. -/
def Grammar (r : Resolver) (sch : InetScheme) (s : Bytes) (port : Nat) : Prop :=
  ∃ host text, s = sch.print host text ∧ sch.HostOk host ∧ (sch.lookup r host).isSome = true ∧
    host.length < 256 ∧ IsPort text port ∧ (sch.print host (decimal port)).length < maxAddressLen

/-- The string has a host and a text that `atoi` reads a port from, and the text printed for them
fits. -/
structure Readable (r : Resolver) (sch : InetScheme) (rest host text : Bytes) : Prop where
  parts : rest = sch.hostPort host text
  hostOk : sch.HostOk host
  found : (sch.lookup r host).isSome = true
  short : host.length < 256
  pos : 1 ≤ atoi text
  le : atoi text ≤ 65535
  fits : (sch.print host (decimal (atoi text).toNat)).length < maxAddressLen

variable {r : Resolver} {sch : InetScheme} {rest host text : Bytes} {a : Address}

/-! ## What is accepted -/

theorem splitColon_eq_some_iff :
    splitColon rest = some (host, text) ↔ rest = host ++ 0x3a :: text ∧ 0x3a ∉ host :=
  strchr_eq_some_iff

theorem splitBrackets_eq_some_iff :
    splitBrackets rest = some (host, text) ↔
      rest = 0x5b :: (host ++ 0x5d :: 0x3a :: text) ∧ host ≠ [] ∧ 0x5d ∉ host := by
  constructor
  · intro h
    unfold splitBrackets at h
    split at h
    · split at h
      · rename_i hfound
        split_ifs at h with hhost
        cases h
        obtain ⟨rfl, hnot⟩ := strchr_eq_some_iff.1 hfound
        exact ⟨rfl, hhost, hnot⟩
      · cases h
    · cases h
  · rintro ⟨rfl, hhost, hnot⟩
    have hfound : strchr 0x5d (host ++ 0x5d :: 0x3a :: text) = some (host, 0x3a :: text) :=
      strchr_eq_some_iff.2 ⟨rfl, hnot⟩
    simp [splitBrackets, hfound, hhost]

/-- The parser finds host and port where the grammar has them. -/
theorem split_eq_some_iff :
    sch.split rest = some (host, text) ↔ rest = sch.hostPort host text ∧ sch.HostOk host := by
  have hcolon : splitColon rest = some (host, text) ↔
      rest = [] ++ host ++ [0x3a] ++ text ∧ 0x3a ∉ host := by
    simpa using splitColon_eq_some_iff
  have hbrackets : splitBrackets rest = some (host, text) ↔
      rest = [0x5b] ++ host ++ [0x5d, 0x3a] ++ text ∧ host ≠ [] ∧ 0x5d ∉ host := by
    simpa using splitBrackets_eq_some_iff
  cases sch with
  | tcp => exact hcolon
  | udp => exact hcolon
  | tcp6 => exact hbrackets
  | udp6 => exact hbrackets

theorem strstr_text (sch : InetScheme) (rest : Bytes) :
    strstr schemeSep (sch.text ++ schemeSep ++ rest) = some (sch.text, rest) := by
  have hpre : strstr schemeSep (sch.text ++ schemeSep) = some (sch.text, []) := by
    cases sch <;> decide
  exact strstr_append hpre rest

theorem parseRest_text (r : Resolver) (sch : InetScheme) (rest : Bytes) :
    parseRest r sch.text rest = (sch.split rest).bind fun p =>
      parseHostPort sch.type (sch.lookup r) (sch.text ++ schemeSep ++ sch.opening) sch.closing
        p.1 p.2 := by
  have hinet (type : TransportType) (scheme : Bytes) : parseInet r type scheme rest =
      (splitColon rest).bind fun p =>
        parseHostPort type r.lookup (scheme ++ schemeSep) [0x3a] p.1 p.2 := by
    unfold parseInet
    cases splitColon rest <;> rfl
  have hinet6 (type : TransportType) (scheme : Bytes) : parseInet6 r type scheme rest =
      (splitBrackets rest).bind fun p =>
        parseHostPort type r.lookup6 (scheme ++ schemeSep ++ [0x5b]) [0x5d, 0x3a] p.1 p.2 := by
    unfold parseInet6
    cases splitBrackets rest <;> rfl
  cases sch with
  | tcp => exact hinet .tcp tcpScheme
  | udp => exact hinet .udp udpScheme
  | tcp6 => exact hinet6 .tcp6 tcp6Scheme
  | udp6 => exact hinet6 .udp6 udp6Scheme

theorem addressParse_text (r : Resolver) (sch : InetScheme) (rest : Bytes) :
    addressParse r (sch.text ++ schemeSep ++ rest) = parseRest r sch.text rest := by
  have hlen : ¬32 ≤ sch.text.length := by cases sch <;> decide
  rw [addressParse_of_strstr (strstr_text sch rest), if_neg hlen]

end InetScheme

theorem printAddress_eq_some_iff {type : TransportType} {addr : SockAddr} {str : Bytes}
    {a : Address} :
    printAddress type addr str = some a ↔ str.length < maxAddressLen ∧ a = ⟨type, addr, str⟩ := by
  unfold printAddress
  split_ifs with hlen
  · simp [hlen, eq_comm]
  · simp [hlen]

theorem parseHostPort_eq_some_iff {type : TransportType}
    {lookup : Bytes → Option (UInt16 → SockAddr)} {pre post host text : Bytes} {a : Address} :
    parseHostPort type lookup pre post host text = some a ↔
      host.length < 256 ∧ ∃ port addr, portOf text = some port ∧ lookup host = some addr ∧
        (pre ++ host ++ post ++ decimal port.toNat).length < maxAddressLen ∧
        a = ⟨type, addr port, pre ++ host ++ post ++ decimal port.toNat⟩ := by
  unfold parseHostPort
  split_ifs with hlen
  · simp [Nat.not_lt.2 hlen]
  · cases hport : portOf text with
    | none => simp
    | some port =>
      cases haddr : lookup host with
      | none => simp
      | some addr => simp [printAddress_eq_some_iff, Nat.lt_of_not_le hlen]

namespace InetScheme

variable {r : Resolver} {sch : InetScheme} {rest host text : Bytes} {a : Address}

/-- **What is accepted:** host and port where the grammar has them, with any text that `atoi` reads
a port from. -/
theorem addressParse_eq_some_iff :
    addressParse r (sch.text ++ schemeSep ++ rest) = some a ↔
      ∃ host text port addr, rest = sch.hostPort host text ∧ sch.HostOk host ∧
        host.length < 256 ∧ portOf text = some port ∧ sch.lookup r host = some addr ∧
        (sch.print host (decimal port.toNat)).length < maxAddressLen ∧
        a = ⟨sch.type, addr port, sch.print host (decimal port.toNat)⟩ := by
  have hprint (host text : Bytes) : sch.text ++ schemeSep ++ sch.opening ++ host ++ sch.closing ++
      text = sch.print host text := by
    simp [print, hostPort]
  rw [addressParse_text, parseRest_text, Option.bind_eq_some_iff]
  simp only [Prod.exists, split_eq_some_iff, parseHostPort_eq_some_iff, hprint]
  constructor
  · rintro ⟨host, text, ⟨hrest, hhost⟩, hlen, port, addr, hport, haddr, hfits, ha⟩
    exact ⟨host, text, port, addr, hrest, hhost, hlen, hport, haddr, hfits, ha⟩
  · rintro ⟨host, text, port, addr, hrest, hhost, hlen, hport, haddr, hfits, ha⟩
    exact ⟨host, text, ⟨hrest, hhost⟩, hlen, port, addr, hport, haddr, hfits, ha⟩

end InetScheme

/-! ## Ports -/

/-- A text is a port if `atoi` reads one. -/
theorem portOf_eq_some_iff {text : Bytes} {port : UInt16} :
    portOf text = some port ↔ 1 ≤ port.toNat ∧ atoi text = port.toNat := by
  have hlt := port.toNat_lt
  unfold portOf
  dsimp only
  split_ifs with hrange
  · constructor
    · intro h
      cases h
    · rintro ⟨hpos, hatoi⟩
      omega
  · rw [Option.some.injEq, ← UInt16.toNat_inj, Nat.toUInt16, UInt16.toNat_ofNat']
    omega

theorem IsPort.atoi_eq {text : Bytes} {port : Nat} (h : IsPort text port) : atoi text = port := by
  have hle := h.le
  rw [atoi_of_isDigit h.isDigit (by rw [h.value]; omega), h.value]

theorem isPort_decimal {port : Nat} (hpos : 1 ≤ port) (hle : port ≤ 65535) :
    IsPort (decimal port) port :=
  ⟨fun _ hc => isDigit_of_mem_decimal hc, digits_decimal port, hpos, hle⟩

theorem portOf_decimal {text : Bytes} {port : UInt16} (h : portOf text = some port) :
    portOf (decimal port.toNat) = some port := by
  have hle : port.toNat ≤ 65535 := Nat.le_of_lt_succ port.toNat_lt
  have hpos := (portOf_eq_some_iff.1 h).1
  exact portOf_eq_some_iff.2 ⟨hpos, (isPort_decimal hpos hle).atoi_eq⟩

/-! ## The grammar -/

namespace InetScheme

variable {r : Resolver} {sch : InetScheme} {rest host text : Bytes} {a : Address}

theorem port_lookup {addr : UInt16 → SockAddr} (h : sch.lookup r host = some addr)
    (port : UInt16) : (addr port).port = some port.toNat := by
  have hinet : ∀ {addr : UInt16 → SockAddr}, r.lookup host = some addr →
      (addr port).port = some port.toNat := by
    intro addr h
    obtain ⟨ip, -, rfl⟩ := Option.map_eq_some_iff.1 h
    rfl
  have hinet6 : ∀ {addr : UInt16 → SockAddr}, r.lookup6 host = some addr →
      (addr port).port = some port.toNat := by
    intro addr h
    obtain ⟨ip, -, rfl⟩ := Option.map_eq_some_iff.1 h
    rfl
  cases sch with
  | tcp => exact hinet h
  | udp => exact hinet h
  | tcp6 => exact hinet6 h
  | udp6 => exact hinet6 h

theorem portText_text (h : rest = sch.hostPort host text) (hhost : sch.HostOk host) :
    portText sch.text rest = some text := by
  have hsplit := split_eq_some_iff.2 ⟨h, hhost⟩
  cases sch with
  | tcp => exact congrArg (Option.map Prod.snd) hsplit
  | udp => exact congrArg (Option.map Prod.snd) hsplit
  | tcp6 => exact congrArg (Option.map Prod.snd) hsplit
  | udp6 => exact congrArg (Option.map Prod.snd) hsplit

/-- A string is accepted, with a port, if it has a text that `atoi` reads it from. -/
theorem accepted_iff {port : Nat} :
    (∃ a, addressParse r (sch.text ++ schemeSep ++ rest) = some a ∧ a.addr.port = some port) ↔
      ∃ host text, sch.Readable r rest host text ∧ atoi text = port := by
  constructor
  · rintro ⟨a, ha, hport⟩
    obtain ⟨host, text, p, addr, hrest, hhost, hlen, hp, haddr, hfits, rfl⟩ :=
      addressParse_eq_some_iff.1 ha
    obtain rfl : p.toNat = port := Option.some.inj ((port_lookup haddr p).symm.trans hport)
    obtain ⟨hpos, hatoi⟩ := portOf_eq_some_iff.1 hp
    have hlt := p.toNat_lt
    exact ⟨host, text, ⟨hrest, hhost, by rw [haddr]; rfl, hlen, by omega, by omega,
      by rwa [hatoi, Int.toNat_natCast]⟩, hatoi⟩
  · rintro ⟨host, text, h, hatoi⟩
    obtain ⟨addr, haddr⟩ := Option.isSome_iff_exists.1 h.found
    have hle := h.le
    have hpos := h.pos
    have hfits := h.fits
    have hnat : port.toUInt16.toNat = port := by
      rw [Nat.toUInt16, UInt16.toNat_ofNat', Nat.mod_eq_of_lt (by omega)]
    rw [hatoi, Int.toNat_natCast] at hfits
    refine ⟨_, addressParse_eq_some_iff.2 ⟨host, text, port.toUInt16, addr, h.parts, h.hostOk,
      h.short, portOf_eq_some_iff.2 ⟨by omega, by omega⟩, haddr, by rwa [hnat], rfl⟩, ?_⟩
    rw [port_lookup haddr, hnat]

/-- The grammar has the strings whose text is the port that `atoi` reads. -/
theorem grammar_iff_readable {port : Nat} :
    sch.Grammar r (sch.text ++ schemeSep ++ rest) port ↔
      ∃ host text, sch.Readable r rest host text ∧ IsPort text port := by
  constructor
  · rintro ⟨host, text, hs, hhost, hfound, hlen, hport, hfits⟩
    have hatoi := hport.atoi_eq
    have hpos := hport.pos
    have hle := hport.le
    exact ⟨host, text, ⟨List.append_cancel_left hs, hhost, hfound, hlen, by omega, by omega,
      by rwa [hatoi, Int.toNat_natCast]⟩, hport⟩
  · rintro ⟨host, text, h, hport⟩
    have hfits := h.fits
    rw [hport.atoi_eq, Int.toNat_natCast] at hfits
    exact ⟨host, text, by rw [h.parts]; rfl, h.hostOk, h.found, h.short, hport, hfits⟩

theorem Readable.text_eq {host' text' : Bytes} (h : sch.Readable r rest host text)
    (h' : sch.Readable r rest host' text') : text' = text :=
  Option.some.inj ((portText_text h'.parts h'.hostOk).symm.trans (portText_text h.parts h.hostOk))

end InetScheme

open InetScheme

/-- **The grammar:** for every resolver, every scheme with a port and every rest of the string: if
the string is in the grammar, it is accepted and the port is its value. It is accepted exactly if it
is in the grammar, with the port that is stored, if and only if the following holds: when it has a
good host and a text that `atoi` reads a number from 1 to 65535 from, and what is printed for them
fits, then this text is the decimal digits of that number. -/
theorem grammar_iff (r : Resolver) (sch : InetScheme) (rest : Bytes) :
    (∀ port, sch.Grammar r (sch.text ++ schemeSep ++ rest) port →
      ∃ a, addressParse r (sch.text ++ schemeSep ++ rest) = some a ∧ a.addr.port = some port) ∧
    ((∀ port,
        (∃ a, addressParse r (sch.text ++ schemeSep ++ rest) = some a ∧ a.addr.port = some port) ↔
          sch.Grammar r (sch.text ++ schemeSep ++ rest) port) ↔
      ∀ host text, sch.Readable r rest host text → IsPort text (atoi text).toNat) := by
  have haccept (port : Nat) (h : sch.Grammar r (sch.text ++ schemeSep ++ rest) port) :
      ∃ a, addressParse r (sch.text ++ schemeSep ++ rest) = some a ∧ a.addr.port = some port := by
    obtain ⟨host, text, hread, hport⟩ := grammar_iff_readable.1 h
    exact accepted_iff.2 ⟨host, text, hread, hport.atoi_eq⟩
  refine ⟨haccept, fun h host text hread => ?_, fun h port => ⟨fun hacc => ?_, haccept port⟩⟩
  · have hnat := Int.toNat_of_nonneg (Int.le_trans (by decide) hread.pos)
    -- the text is that of the port of the grammar, since the parser finds it in one place
    obtain ⟨host', text', hread', hport⟩ := grammar_iff_readable.1
      ((h (atoi text).toNat).1 (accepted_iff.2 ⟨host, text, hread, hnat.symm⟩))
    rwa [hread.text_eq hread'] at hport
  · obtain ⟨host, text, hread, hatoi⟩ := accepted_iff.1 hacc
    have hport := h host text hread
    rw [hatoi, Int.toNat_natCast] at hport
    exact grammar_iff_readable.2 ⟨host, text, hread, hport⟩

/-- `tcp://h:80x` is accepted, with port 80. -/
theorem trailing_text_accepted :
    (addressParse localResolver (tcpScheme ++ schemeSep ++ [0x68, 0x3a, 0x38, 0x30, 0x78])).map
        (fun a => a.addr.port) = some (some 80) ∧
      portText tcpScheme [0x68, 0x3a, 0x38, 0x30, 0x78] = some [0x38, 0x30, 0x78] ∧
      CString.isDigit 0x78 = false := by
  decide +kernel

/-! ## Printed addresses -/

theorem addressParse_unix (r : Resolver) (path : Bytes) :
    addressParse r (unixScheme ++ schemeSep ++ path) = parseUnix path := by
  rw [addressParse_of_strstr (strstr_qualified path)]
  rfl

/-- A path is accepted if `address_str` holds it; `path` then holds it, too. -/
theorem parseUnix_eq_some_iff {path : Bytes} {a : Address} :
    parseUnix path = some a ↔ path.length ≤ 248 ∧
      a = ⟨.unix, .unix (copyBounded 108 path), unixScheme ++ schemeSep ++ path⟩ := by
  have hscheme : (unixScheme ++ schemeSep).length = 7 := rfl
  unfold parseUnix
  rw [printAddress_eq_some_iff, maxAddressLen, List.length_append, hscheme]
  by_cases hlen : path.length ≤ 248
  · have hwhole : copyBounded 256 path = path := List.take_of_length_le (by omega)
    rw [hwhole]
    exact and_congr_left fun _ => by omega
  · refine iff_of_false (fun h => ?_) fun h => hlen h.1
    have hcut := h.1
    rw [copyBounded, List.length_take] at hcut
    omega

theorem exists_scheme {r : Resolver} {s : Bytes} {a : Address} (h : addressParse r s = some a) :
    (∃ path, s = unixScheme ++ schemeSep ++ path) ∨
      ∃ (sch : InetScheme) (rest : Bytes), s = sch.text ++ schemeSep ++ rest := by
  cases hfound : strstr schemeSep s with
  | none => simp [addressParse, hfound] at h
  | some found =>
    obtain ⟨protocol, rest⟩ := found
    have hs := eq_of_strstr hfound
    rw [addressParse_of_strstr hfound] at h
    split_ifs at h
    unfold parseRest at h
    split_ifs at h with hunix htcp hudp htcp6 hudp6
    · rw [hunix] at hs
      exact .inl ⟨rest, hs⟩
    · rw [htcp] at hs
      exact .inr ⟨.tcp, rest, hs⟩
    · rw [hudp] at hs
      exact .inr ⟨.udp, rest, hs⟩
    · rw [htcp6] at hs
      exact .inr ⟨.tcp6, rest, hs⟩
    · rw [hudp6] at hs
      exact .inr ⟨.udp6, rest, hs⟩

/-- **Normal forms:** what an accepted string is printed as is accepted, with the same type, the
same socket address and the same `address_str`. -/
theorem addressParse_addressStr (r : Resolver) (s : Bytes) (a : Address)
    (h : addressParse r s = some a) : addressParse r a.addressStr = some a := by
  rcases exists_scheme h with ⟨path, rfl⟩ | ⟨sch, rest, rfl⟩
  · rw [addressParse_unix] at h
    obtain ⟨-, rfl⟩ := parseUnix_eq_some_iff.1 h
    rwa [addressParse_unix]
  · obtain ⟨host, text, port, addr, hrest, hhost, hlen, hport, haddr, hfits, rfl⟩ :=
      addressParse_eq_some_iff.1 h
    -- the host is found again, and the port is read from what was printed for it
    exact addressParse_eq_some_iff.2 ⟨host, decimal port.toNat, port, addr, rfl, hhost, hlen,
      portOf_decimal hport, haddr, hfits, rfl⟩

/-- `tcp://h: +080x` is printed as `tcp://h:80`. -/
theorem odd_port_printed :
    addressParse localResolver
        (tcpScheme ++ schemeSep ++ [0x68, 0x3a, 0x20, 0x2b, 0x30, 0x38, 0x30, 0x78]) =
      some ⟨.tcp, .inet 0x7f000001 80, tcpScheme ++ schemeSep ++ [0x68, 0x3a, 0x38, 0x30]⟩ ∧
    addressParse localResolver (tcpScheme ++ schemeSep ++ [0x68, 0x3a, 0x38, 0x30]) =
      some ⟨.tcp, .inet 0x7f000001 80, tcpScheme ++ schemeSep ++ [0x68, 0x3a, 0x38, 0x30]⟩ :=
  ⟨by decide +kernel, addressParse_addressStr localResolver
    (tcpScheme ++ schemeSep ++ [0x68, 0x3a, 0x20, 0x2b, 0x30, 0x38, 0x30, 0x78])
    ⟨.tcp, .inet 0x7f000001 80, tcpScheme ++ schemeSep ++ [0x68, 0x3a, 0x38, 0x30]⟩
    (by decide +kernel)⟩

end Ssn
