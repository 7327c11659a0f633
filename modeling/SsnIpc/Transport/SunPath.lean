import Mathlib.Data.List.TakeDrop
import SsnIpc.Transport.Grammar

/-!
# Paths in `sun_path`

A path is copied into `path` (256 bytes), from there into `sun_path` (108 bytes) and into
`address_str` (256 bytes, with `unix://`). Only the last copy is checked. So paths of up to 248
bytes are accepted, and those of more than 107 are cut: sockets are bound and connected by the
first 107 bytes.

**Theorem (`sunPath_iff`).** The path is whole in `sun_path`, and is printed whole by
`ssn_address_to_string`, exactly if it has at most 107 bytes; two paths give the same socket exactly
if they begin with the same 107 bytes.
-/

namespace Ssn

open ByteMem CString

/-- `inet_ntop` for both families. -/
structure Printer where
  inetNtop : BitVec 32 → Bytes
  inetNtop6 : BitVec 128 → Bytes

/-- `ssn_address_to_string`: the text in a buffer of `size` bytes. The type of an address says what
is in it. -/
def addressToString (p : Printer) (a : Address) (size : Nat) : Option Bytes :=
  if size = 0 then none
  else
    match a.type, a.addr with
    | .unix, .unix sunPath => some (copyBounded size (unixScheme ++ schemeSep ++ sunPath))
    | .tcp, .inet addr port =>
      some (copyBounded size (InetScheme.tcp.print (p.inetNtop addr) (decimal port.toNat)))
    | .tcp6, .inet6 addr port =>
      some (copyBounded size (InetScheme.tcp6.print (p.inetNtop6 addr) (decimal port.toNat)))
    | .udp, .inet addr port =>
      some (copyBounded size (InetScheme.udp.print (p.inetNtop addr) (decimal port.toNat)))
    | .udp6, .inet6 addr port =>
      some (copyBounded size (InetScheme.udp6.print (p.inetNtop6 addr) (decimal port.toNat)))
    | _, _ => none

/-- A buffer that holds the path as it was holds it as it was cut. -/
theorem addressToString_unix (p : Printer) {path cut addressStr : Bytes} {size : Nat}
    (hsize : (unixScheme ++ schemeSep ++ cut).length < size) :
    addressToString p ⟨.unix, .unix cut, addressStr⟩ size =
        some (unixScheme ++ schemeSep ++ path) ↔ cut = path := by
  have hpos : size ≠ 0 := Nat.ne_of_gt (Nat.zero_lt_of_lt hsize)
  have hwhole : copyBounded size (unixScheme ++ schemeSep ++ cut) =
      unixScheme ++ schemeSep ++ cut := List.take_of_length_le (Nat.le_pred_of_lt hsize)
  rw [addressToString, if_neg hpos]
  dsimp only
  rw [hwhole, Option.some.injEq, List.append_cancel_left_eq]

/-- **Paths of sockets:** for an accepted path: `sun_path` holds all of it if and only if it has at
most 107 bytes; another accepted path gives the same socket if and only if the first 107 bytes are
the same; and a buffer that is large enough gets `address_str` from `ssn_address_to_string` if and
only if the path has at most 107 bytes. -/
theorem sunPath_iff (r : Resolver) (p : Printer) (path : Bytes) (a : Address)
    (h : addressParse r (unixScheme ++ schemeSep ++ path) = some a) :
    (a.addr = .unix path ↔ path.length ≤ 107) ∧
      (∀ path' b, addressParse r (unixScheme ++ schemeSep ++ path') = some b →
        (a.endpoint = b.endpoint ↔ path.take 107 = path'.take 107)) ∧
      ∀ size, a.addressStr.length < size →
        (addressToString p a size = some a.addressStr ↔ path.length ≤ 107) := by
  rw [addressParse_unix] at h
  obtain ⟨-, rfl⟩ := parseUnix_eq_some_iff.1 h
  -- `sun_path` takes 107 bytes, so all three parts ask whether the path is cut there.
  have hcut : path.take 107 = path ↔ path.length ≤ 107 := List.take_eq_self_iff path
  refine ⟨?_, ?_, ?_⟩
  · rw [← hcut]
    exact ⟨fun heq => SockAddr.unix.inj heq, fun heq => congrArg SockAddr.unix heq⟩
  · intro path' b hb
    rw [addressParse_unix] at hb
    obtain ⟨-, rfl⟩ := parseUnix_eq_some_iff.1 hb
    constructor
    · intro heq
      exact SockAddr.unix.inj (congrArg Endpoint.addr heq)
    · intro heq
      exact congrArg (fun cut => Endpoint.mk .unix (.unix cut)) heq
  · intro size hsize
    rw [addressToString_unix p, ← hcut]
    · rfl
    · refine Nat.lt_of_le_of_lt ?_ hsize
      show (unixScheme ++ schemeSep ++ path.take 107).length ≤
        (unixScheme ++ schemeSep ++ path).length
      simp only [List.length_append]
      exact Nat.add_le_add_left (List.length_take_le' 107 path) _

/-- `/s` is whole. -/
theorem sunPath_short :
    addressParse localResolver (unixScheme ++ schemeSep ++ [0x2f, 0x73]) =
        some ⟨.unix, .unix [0x2f, 0x73], unixScheme ++ schemeSep ++ [0x2f, 0x73]⟩ ∧
      (SockAddr.unix [0x2f, 0x73] = .unix [0x2f, 0x73] ↔ [0x2f, 0x73].length ≤ 107) :=
  ⟨by decide +kernel, (sunPath_iff localResolver ⟨fun _ => [], fun _ => []⟩ [0x2f, 0x73]
    ⟨.unix, .unix [0x2f, 0x73], unixScheme ++ schemeSep ++ [0x2f, 0x73]⟩ (by decide +kernel)).1⟩

/-- A path of 108 bytes that ends with `c`. -/
def longPath (c : UInt8) : Bytes := 0x2f :: (List.replicate 106 0x61 ++ [c])

/-- Two paths of 108 bytes are accepted, differ, and name one socket; neither is printed whole. -/
theorem longPaths_same_socket :
    longPath 0x61 ≠ longPath 0x62 ∧
      ((addressParse localResolver (unixScheme ++ schemeSep ++ longPath 0x61)).map
        Address.endpoint).isSome = true ∧
      (addressParse localResolver (unixScheme ++ schemeSep ++ longPath 0x61)).map
          Address.endpoint =
        (addressParse localResolver (unixScheme ++ schemeSep ++ longPath 0x62)).map
          Address.endpoint ∧
      (addressParse localResolver (unixScheme ++ schemeSep ++ longPath 0x61)).bind
          (fun a => addressToString ⟨fun _ => [], fun _ => []⟩ a 256) =
        some (unixScheme ++ schemeSep ++ (longPath 0x61).take 107) := by
  decide +kernel

end Ssn
