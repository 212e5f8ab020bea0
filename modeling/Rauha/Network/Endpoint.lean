import Rauha.Common.Zone
import Rauha.Library.Text

/-!
# Network targets and interface names

What a network policy says in words, and what becomes of it.

* **Targets.**  `NetworkEndpoint.fromStr` reads an entry of `allowed_egress` or `allowed_ingress`:
  an address or a network, and a TCP port.  How an IP address is read and printed is the standard
  library's matter, so `IpText` is a parameter; of the printed form only the alphabet is known.
* **Interfaces.**  `vethHostNameFor` gives the host side of a zone's veth pair: a name made from a
  digest of the zone's name, or the older name made from its first ten bytes if only that one
  exists.  The digest and the interfaces that exist are the parameter `Links`.
-/

namespace Rauha

open Text

/-! ## Addresses -/

inductive IpAddr where
  | V4 (bits : BitVec 32)
  | V6 (bits : BitVec 128)
  deriving DecidableEq

def IpAddr.isIpv4 : IpAddr → Bool
  | .V4 _ => true
  | .V6 _ => false

/-- The standard library's reading and printing of IP addresses. -/
structure IpText where
  parse : List Char → Option IpAddr
  display : IpAddr → String
  display_chars : ∀ a, ∀ c ∈ (display a).toList, c.isAlphanum || c == '.' || c == ':'

structure NetworkEndpoint where
  address : IpAddr
  prefixLen : ℕ
  port : Option ℕ
  deriving DecidableEq

namespace NetworkEndpoint

variable (std : IpText)

def parseNetwork (value : List Char) : Except String (IpAddr × ℕ) := do
  let (address, suffix) :=
    match splitOnce '/' value with
    | some (address, suffix) => (address, some suffix)
    | none => (value, none)
  let address ←
    match std.parse address with
    | some address => .ok address
    | none => .error ("invalid IP address or CIDR: " ++ String.ofList value)
  let maxPrefix := if address.isIpv4 then 32 else 128
  let prefixLen ←
    match suffix.map (parseUnsigned 255) with
    | none => .ok maxPrefix
    | some (some n) => .ok n
    | some none => .error ("invalid CIDR prefix: " ++ String.ofList value)
  if maxPrefix < prefixLen then
    .error ("CIDR prefix exceeds " ++ toString maxPrefix ++ ": " ++ String.ofList value)
  else .ok (address, prefixLen)

def isNetwork (value : List Char) : Bool :=
  match parseNetwork std value with
  | .ok _ => true
  | .error _ => false

/-- The network and the port of a target. -/
def splitPort (value : List Char) : Except String (List Char × Option (List Char)) :=
  match value with
  | '[' :: rest =>
    match splitOncePair ']' ':' rest with
    | some (network, port) => .ok (network, some port)
    | none => .error ("invalid bracketed network target: " ++ String.ofList value)
  | value =>
    if isNetwork std value then .ok (value, none)
    else
      match rsplitOnce ':' value with
      | some (network, port) => .ok (network, some port)
      | none => .error ("invalid network target: " ++ String.ofList value)

def parsePort (value : List Char) : Option (List Char) → Except String (Option ℕ)
  | none => .ok none
  | some text =>
    match parseUnsigned 65535 text with
    | none => .error ("invalid TCP port: " ++ String.ofList value)
    | some 0 => .error ("TCP port must be between 1 and 65535: " ++ String.ofList value)
    | some port => .ok (some port)

def fromStr (value : String) : Except String NetworkEndpoint := do
  let value := trim value.toList
  if value = [] then .error "network target is empty"
  let (network, port) ← splitPort std value
  let (address, prefixLen) ← parseNetwork std network
  let port ← parsePort value port
  .ok { address, prefixLen, port }

def nftFamily (e : NetworkEndpoint) : String := if e.address.isIpv4 then "ip" else "ip6"

def network (e : NetworkEndpoint) : String :=
  std.display e.address ++ "/" ++ toString e.prefixLen

end NetworkEndpoint

/-! ## Interfaces -/

/-- The digest of a zone name, and the interfaces of the host. -/
structure Links where
  digest : String → List UInt8
  linkExists : String → Bool

def hexByte (b : UInt8) : List Char :=
  [Nat.digitChar (b.toNat / 16), Nat.digitChar (b.toNat % 16)]

/-- The characters that make up the first `n` bytes, if a character ends there. -/
def takeBytes : ℕ → List Char → Option (List Char)
  | 0, _ => some []
  | _ + 1, [] => some []
  | n + 1, c :: text =>
    if c.utf8Size ≤ n + 1 then (takeBytes (n + 1 - c.utf8Size) text).map (c :: ·) else none

namespace Links

variable (links : Links)

def vethName (pre zoneName : String) : String :=
  pre ++ String.ofList (((links.digest zoneName).take 5).flatMap hexByte)

def vethHostName (zoneName : String) : String := links.vethName "veth" zoneName

def legacyVethHostName (zoneName : String) : String :=
  "veth-" ++ String.ofList ((takeBytes 10 zoneName.toList).getD [])

/-- The name under which the interface of a zone is found. -/
def vethHostNameFor (zoneName : String) : String :=
  let current := links.vethHostName zoneName
  let legacy := legacyVethHostName zoneName
  if links.linkExists current then current
  else if links.linkExists legacy then legacy
  else current

end Links

end Rauha
