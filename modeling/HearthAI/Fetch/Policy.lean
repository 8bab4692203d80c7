import HearthAI.Contracts.Text
import HearthAI.Contracts.Limits

/-! # Destination policy: which addresses this deployment may talk to

Addresses are kept in the form the standard library stores them: four octets, or
eight segments of sixteen bits. A denied range carries the bound on its prefix, so
matching never reads past the octets.
-/
namespace HearthAI.Fetch
open Text Contracts

inductive Profile
  | production
  | test
  deriving DecidableEq, Repr

def Profile.asStr : Profile → String
  | .production => "production"
  | .test => "test"

abbrev Octet := BitVec 8
abbrev Segment := BitVec 16

structure Ipv4Addr where
  a : Octet
  b : Octet
  c : Octet
  d : Octet
  deriving DecidableEq, Repr

structure Ipv6Addr where
  s0 : Segment
  s1 : Segment
  s2 : Segment
  s3 : Segment
  s4 : Segment
  s5 : Segment
  s6 : Segment
  s7 : Segment
  deriving DecidableEq, Repr

inductive IpAddr
  | v4 (address : Ipv4Addr)
  | v6 (address : Ipv6Addr)
  deriving DecidableEq, Repr

structure SocketAddr where
  ip : IpAddr
  port : ℕ
  deriving DecidableEq, Repr

/-- `(segment >> 8) as u8` and `segment as u8`. -/
def highByte (s : Segment) : Octet := (s >>> 8).setWidth 8
def lowByte (s : Segment) : Octet := s.setWidth 8

def Ipv4Addr.octets (v4 : Ipv4Addr) : List Octet := [v4.a,v4.b,v4.c,v4.d]
def Ipv6Addr.segments (v6 : Ipv6Addr) : List Segment :=
  [v6.s0,v6.s1,v6.s2,v6.s3,v6.s4,v6.s5,v6.s6,v6.s7]
def Ipv6Addr.octets (v6 : Ipv6Addr) : List Octet :=
  v6.segments.flatMap (fun s => [highByte s,lowByte s])

namespace Ipv4Addr
variable (v4 : Ipv4Addr)
def isUnspecified : Bool := v4.octets == [0,0,0,0]
def isLoopback : Bool := v4.a == 127
def isPrivate : Bool :=
  v4.a == 10 || (v4.a == 172 && 16 ≤ v4.b && v4.b ≤ 31) || (v4.a == 192 && v4.b == 168)
def isLinkLocal : Bool := v4.a == 169 && v4.b == 254
def isMulticast : Bool := 224 ≤ v4.a && v4.a ≤ 239
def isBroadcast : Bool := v4.octets == [255,255,255,255]
def isDocumentation : Bool :=
  (v4.a == 192 && v4.b == 0 && v4.c == 2) || (v4.a == 198 && v4.b == 51 && v4.c == 100) ||
    (v4.a == 203 && v4.b == 0 && v4.c == 113)
end Ipv4Addr

namespace Ipv6Addr
variable (v6 : Ipv6Addr)
def isUnspecified : Bool := v6.segments == [0,0,0,0,0,0,0,0]
def isLoopback : Bool := v6.segments == [0,0,0,0,0,0,0,1]
def isMulticast : Bool := v6.s0 &&& 0xff00 == 0xff00

/-- `to_ipv4_mapped`: the last four octets of `::ffff:a.b.c.d`. -/
def toIpv4Mapped : Option Ipv4Addr :=
  if v6.segments.take 6 = [0,0,0,0,0,0xffff] then
    some ⟨highByte v6.s6,lowByte v6.s6,highByte v6.s7,lowByte v6.s7⟩
  else none
end Ipv6Addr

def IpAddr.isLoopback : IpAddr → Bool
  | .v4 address => address.isLoopback
  | .v6 address => address.isLoopback

def IpAddr.width : IpAddr → ℕ
  | .v4 _ => 32
  | .v6 _ => 128

/-- Reduce the IPv6 spellings of an IPv4 address to that address. -/
def canonical : IpAddr → IpAddr
  | .v4 v4 => .v4 v4
  | .v6 v6 =>
    match v6.toIpv4Mapped with
    | some v4 => .v4 v4
    | none =>
      if v6.segments.take 6 = [0,0,0,0,0,0] ∧ !v6.isUnspecified ∧ !v6.isLoopback then
        .v4 ⟨highByte v6.s6,lowByte v6.s6,highByte v6.s7,lowByte v6.s7⟩
      else if v6.s0 = 0x2002 then
        .v4 ⟨highByte v6.s1,lowByte v6.s1,highByte v6.s2,lowByte v6.s2⟩
      else if v6.segments.take 6 = [0x0064,0xff9b,0,0,0,0] then
        .v4 ⟨highByte v6.s6,lowByte v6.s6,highByte v6.s7,lowByte v6.s7⟩
      else .v6 v6

def isPublicV4 (v4 : Ipv4Addr) : Bool :=
  let special := v4.isUnspecified || v4.isLoopback || v4.isPrivate || v4.isLinkLocal ||
    v4.isMulticast || v4.isBroadcast || v4.isDocumentation || v4.a == 0 ||
    (v4.a == 100 && 64 ≤ v4.b && v4.b < 128) || (v4.a == 192 && v4.b == 0 && v4.c == 0) ||
    (v4.a == 192 && v4.b == 88 && v4.c == 99) || (v4.a == 198 && (v4.b == 18 || v4.b == 19)) ||
    240 ≤ v4.a
  !special

def isPublicV6 (v6 : Ipv6Addr) : Bool :=
  let special := v6.isUnspecified || v6.isLoopback || v6.isMulticast ||
    v6.s0 &&& 0xfe00 == 0xfc00 || v6.s0 &&& 0xffc0 == 0xfe80 || v6.s0 &&& 0xffc0 == 0xfec0 ||
    (v6.s0 == 0x2001 && v6.s1 == 0x0db8) || (v6.s0 == 0x2001 && v6.s1 == 0) ||
    v6.segments.take 4 == [0x0100,0,0,0]
  !special

def isPublic (address : IpAddr) : Bool :=
  match canonical address with
  | .v4 v4 => isPublicV4 v4
  | .v6 v6 => isPublicV6 v6

/-- A range: a network and a prefix within the network's width. -/
structure Cidr where
  network : IpAddr
  prefixLen : ℕ
  bounded : prefixLen ≤ network.width
  deriving DecidableEq

/-- Parse `address/prefix`. `parseIp` is the standard library's address parser. -/
def Cidr.parse (parseIp : String → Option IpAddr) (value : String) :
    Except ContractError Cidr := do
  let (address,lengthText) ← match splitOnce '/' value with
    | none => throw ⟨s!"denied range is not CIDR notation: {value}"⟩
    | some parts => pure parts
  let network ← match parseIp address with
    | none => throw ⟨s!"denied range has no valid address: {value}"⟩
    | some network => pure network
  let prefixLen ← match fromStrRadix 8 lengthText.toList 10 with
    | none => throw ⟨s!"denied range has no valid prefix: {value}"⟩
    | some prefixLen => pure prefixLen
  if bounded : prefixLen ≤ network.width then return ⟨network,prefixLen,bounded⟩
  else throw ⟨s!"denied range prefix is out of bounds: {value}"⟩

/-- Compare whole octets, then the remaining bits of the next one under a mask. -/
def matchesPrefix (network candidate : List Octet) (prefixLen : ℕ) : Bool :=
  let full := prefixLen / 8
  let remainder := prefixLen % 8
  if network.take full ≠ candidate.take full then false
  else if remainder = 0 then true
  else
    let mask : Octet := 0xff#8 <<< (8 - remainder)
    (network.getD full 0) &&& mask == (candidate.getD full 0) &&& mask

def Cidr.contains (range : Cidr) (address : IpAddr) : Bool :=
  match range.network, canonical address with
  | .v4 network, .v4 candidate => matchesPrefix network.octets candidate.octets range.prefixLen
  | .v6 network, .v6 candidate => matchesPrefix network.octets candidate.octets range.prefixLen
  | _, _ => false

/-- The configuration file, as deserialized. -/
structure PolicyFile where
  policyVersion : ℕ
  profile : Profile
  deniedCidrs : List String

structure DestinationPolicy where
  profile : Profile
  denied : List Cidr

namespace DestinationPolicy

/-- What `load` makes of a file that was read and parsed. -/
def ofFile (parseIp : String → Option IpAddr) (file : PolicyFile) :
    Except ContractError DestinationPolicy := do
  refuseIf (file.policyVersion ≠ 1) "unsupported destination policy version"
  refuseIf file.deniedCidrs.isEmpty
    "destination policy lists no cluster ranges; refusing to run without them"
  let denied ← file.deniedCidrs.mapM (Cidr.parse parseIp)
  return ⟨file.profile,denied⟩

variable (policy : DestinationPolicy)

def permitsPort (port : ℕ) : Bool := port == 80 || port == 443 || policy.profile == .test

def permits (address : IpAddr) : Bool :=
  let address := canonical address
  if policy.denied.any (fun range => range.contains address) then false
  else if isPublic address then true
  else policy.profile == .test && address.isLoopback

theorem permitsPort_production {policy : DestinationPolicy} {port : ℕ}
    (hprofile : policy.profile = .production) (h : policy.permitsPort port = true) :
    port = 80 ∨ port = 443 := by
  simpa [permitsPort,hprofile] using h

end DestinationPolicy
end HearthAI.Fetch
