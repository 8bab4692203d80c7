import HearthAI.Core.Fallible
import HearthAI.Fetch.Special

/-! # What the operator's ranges refuse

A candidate is reduced to the IPv4 address that it spells before it is compared, and a
listed range is compared as it was written.
-/
namespace HearthAI.Fetch
open Contracts BigEndian

/-- A listed range covers the address, which spells an IPv4 address that nothing refuses. -/
def DestinationPolicy.Overlooks (policy : DestinationPolicy) (address : IpAddr) : Prop :=
  (∃ range ∈ policy.denied, range.Covers address) ∧ canonical address ≠ address ∧
    (∀ range ∈ policy.denied, ¬range.Covers (canonical address)) ∧
    policy.Admits (canonical address)

section
variable {parseIp : String → Option IpAddr} {file : PolicyFile} {policy : DestinationPolicy}

theorem ofFile_eq_ok (hload : DestinationPolicy.ofFile parseIp file = .ok policy) :
    policy.profile = file.profile ∧ ∀ range, range ∈ policy.denied ↔
      ∃ text ∈ file.deniedCidrs, Cidr.parse parseIp text = .ok range := by
  unfold DestinationPolicy.ofFile at hload
  obtain ⟨_,_,hload⟩ := bind_eq_ok.mp hload
  obtain ⟨_,_,hload⟩ := bind_eq_ok.mp hload
  obtain ⟨denied,hdenied,hpolicy⟩ := bind_eq_ok.mp hload
  obtain rfl := Except.ok.inj hpolicy
  exact ⟨rfl,fun range => mem_of_mapM hdenied⟩

/-- A listed range refuses what it covers, unless it overlooks it under another spelling. -/
theorem denied_effective_iff (hload : DestinationPolicy.ofFile parseIp file = .ok policy)
    (address : IpAddr) :
    ((∃ text ∈ file.deniedCidrs, ∃ range, Cidr.parse parseIp text = .ok range ∧
        range.Covers address) → policy.permits address = false) ↔
      ¬policy.Overlooks address := by
  have hlisted : (∃ text ∈ file.deniedCidrs, ∃ range, Cidr.parse parseIp text = .ok range ∧
      range.Covers address) ↔ ∃ range ∈ policy.denied, range.Covers address := by
    simp only [(ofFile_eq_ok hload).2]
    constructor
    · rintro ⟨text,htext,range,hparse,hcovers⟩
      exact ⟨range,⟨text,htext,hparse⟩,hcovers⟩
    · rintro ⟨range,⟨text,htext,hparse⟩,hcovers⟩
      exact ⟨text,htext,range,hparse,hcovers⟩
  rw [hlisted,← Bool.not_eq_true,permits_iff]
  constructor
  · rintro h ⟨hcovered,_,hnone,hadmits⟩
    exact h hcovered ⟨hnone,hadmits⟩
  · rintro h hcovered ⟨hnone,hadmits⟩
    refine h ⟨hcovered,fun hsame => ?_,hnone,hadmits⟩
    obtain ⟨range,hrange,hcovers⟩ := hcovered
    rw [hsame] at hnone
    exact hnone range hrange hcovers

end

/-- The addresses of two texts, as the standard library reads them. -/
def listedIp (text : String) : Option IpAddr :=
  if text = "10.42.0.0" then some (.v4 ⟨10,42,0,0⟩)
  else if text = "::ffff:8.8.8.0" then some (.v6 ⟨0,0,0,0,0,0xffff,0x808,0x800⟩)
  else none

/-- A cluster range refuses a node of the cluster. -/
theorem denied_effective_node :
    (⟨.production,[clusterRange]⟩ : DestinationPolicy).permits (.v4 ⟨10,42,0,7⟩) = false := by
  have hload : DestinationPolicy.ofFile listedIp ⟨1,.production,["10.42.0.0/16"]⟩ =
      .ok ⟨.production,[clusterRange]⟩ := rfl
  have hcovers : clusterRange.Covers (.v4 ⟨10,42,0,7⟩) := by
    unfold clusterRange
    decide
  refine (denied_effective_iff hload (.v4 ⟨10,42,0,7⟩)).mpr (fun h => h.2.1 rfl) ?_
  exact ⟨"10.42.0.0/16",List.mem_singleton.mpr rfl,clusterRange,rfl,hcovers⟩

def mappedRange : Cidr := ⟨.v6 ⟨0,0,0,0,0,0xffff,0x808,0x800⟩,120,by decide⟩

/-- A range in mapped notation never matches the addresses that it covers. -/
theorem permits_listed :
    DestinationPolicy.ofFile listedIp ⟨1,.production,["::ffff:8.8.8.0/120"]⟩ =
        .ok ⟨.production,[mappedRange]⟩ ∧
      mappedRange.Covers (.v6 ⟨0,0,0,0,0,0xffff,0x808,0x808⟩) ∧
      (⟨.production,[mappedRange]⟩ : DestinationPolicy).permits
        (.v6 ⟨0,0,0,0,0,0xffff,0x808,0x808⟩) = true := by
  refine ⟨rfl,?_,by decide⟩
  unfold mappedRange
  decide

/-- The IPv6 forms that spell an IPv4 address. -/
inductive Spells : Ipv6Addr → Ipv4Addr → Prop
  | mapped (v4 : Ipv4Addr) : Spells ⟨0,0,0,0,0,0xffff,v4.a ++ v4.b,v4.c ++ v4.d⟩ v4
  | compatible (v4 : Ipv4Addr) : Spells ⟨0,0,0,0,0,0,v4.a ++ v4.b,v4.c ++ v4.d⟩ v4
  | sixToFour (v4 : Ipv4Addr) (s3 s4 s5 s6 s7 : Segment) :
      Spells ⟨0x2002,v4.a ++ v4.b,v4.c ++ v4.d,s3,s4,s5,s6,s7⟩ v4
  | translated (v4 : Ipv4Addr) : Spells ⟨0x64,0xff9b,0,0,0,0,v4.a ++ v4.b,v4.c ++ v4.d⟩ v4

/-- A slice, an index and a shift of the source, each of which may panic. -/
def sliceTo (octets : List Octet) (n : ℕ) : Option (List Octet) :=
  if n ≤ octets.length then some (octets.take n) else none

def shiftLeft (octet : Octet) (n : ℕ) : Option Octet :=
  if n < 8 then some (octet <<< n) else none

/-- `matchesPrefix` with the panics. -/
def matchesPrefixChecked (network candidate : List Octet) (prefixLen : ℕ) : Option Bool := do
  let full := prefixLen / 8
  let remainder := prefixLen % 8
  if (← sliceTo network full) ≠ (← sliceTo candidate full) then return false
  if remainder = 0 then return true
  let mask ← shiftLeft 0xff (8 - remainder)
  return (← network[full]?) &&& mask == (← candidate[full]?) &&& mask

/-- `contains` with the panics. -/
def Cidr.containsChecked (range : Cidr) (address : IpAddr) : Option Bool :=
  match range.network, canonical address with
  | .v4 network, .v4 candidate =>
    matchesPrefixChecked network.octets candidate.octets range.prefixLen
  | .v6 network, .v6 candidate =>
    matchesPrefixChecked network.octets candidate.octets range.prefixLen
  | _, _ => some false

theorem matchesPrefixChecked_eq {ns cs : List Octet} {p : ℕ} (hlength : ns.length = cs.length)
    (hp : p ≤ 8 * ns.length) : matchesPrefixChecked ns cs p = some (matchesPrefix ns cs p) := by
  have hn : p / 8 ≤ ns.length := by omega
  have hc : p / 8 ≤ cs.length := by omega
  unfold matchesPrefixChecked matchesPrefix sliceTo shiftLeft
  dsimp only
  rw [if_pos hn,if_pos hc]
  by_cases hlead : ns.take (p / 8) = cs.take (p / 8)
  · by_cases hzero : p % 8 = 0
    · simp [hlead,hzero]
    · have hshift : 8 - p % 8 < 8 := by omega
      have hn' : p / 8 < ns.length := by omega
      have hc' : p / 8 < cs.length := by omega
      simp [hlead,hzero,hshift,hn',hc']
  · simp [hlead]

theorem containsChecked_eq (range : Cidr) (address : IpAddr) :
    range.containsChecked address = some (range.contains address) := by
  obtain ⟨network,p,hbounded⟩ := range
  unfold Cidr.containsChecked Cidr.contains
  cases network with
  | v4 network =>
    cases canonical address with
    | v4 candidate => exact matchesPrefixChecked_eq rfl hbounded
    | v6 candidate => rfl
  | v6 network =>
    cases canonical address with
    | v4 candidate => rfl
    | v6 candidate => exact matchesPrefixChecked_eq rfl hbounded

section
variable {policy : DestinationPolicy} {s : Ipv6Addr} {v : Ipv4Addr}

theorem highByte_append (hi lo : Octet) : highByte (hi ++ lo) = hi := by
  unfold highByte
  ext i hi'
  have happend := BitVec.getLsbD_append (x := hi) (y := lo) (i := 8 + i)
  simp at happend ⊢
  rw [happend,BitVec.getLsbD_eq_getElem hi']

theorem lowByte_append (hi lo : Octet) : lowByte (hi ++ lo) = lo :=
  BitVec.setWidth_append_eq_right

/-- A spelling is reduced to its IPv4 address, but for `::` and `::1`. -/
theorem canonical_of_spells (h : Spells s v) :
    canonical (.v6 s) = .v4 v ∨
      canonical (.v6 s) = .v6 s ∧ (s.isUnspecified = true ∨ s.isLoopback = true) := by
  have hsplit : ∀ v : Ipv4Addr, (⟨highByte (v.a ++ v.b),lowByte (v.a ++ v.b),
      highByte (v.c ++ v.d),lowByte (v.c ++ v.d)⟩ : Ipv4Addr) = v := by
    intro v
    rw [highByte_append,lowByte_append,highByte_append,lowByte_append]
  cases h with
  | mapped =>
    left
    simp [canonical,Ipv6Addr.toIpv4Mapped,Ipv6Addr.segments,hsplit]
  | compatible =>
    by_cases hspecial : Ipv6Addr.isUnspecified ⟨0,0,0,0,0,0,v.a ++ v.b,v.c ++ v.d⟩ = true ∨
        Ipv6Addr.isLoopback ⟨0,0,0,0,0,0,v.a ++ v.b,v.c ++ v.d⟩ = true
    · right
      refine ⟨?_,hspecial⟩
      rcases hspecial with hspecial | hspecial
      · obtain ⟨hhigh,hlow⟩ : (v.a ++ v.b : Segment) = (0 : Segment) ∧
            (v.c ++ v.d : Segment) = (0 : Segment) := by
          simpa [Ipv6Addr.isUnspecified,Ipv6Addr.segments] using hspecial
        rw [hhigh,hlow]
        rfl
      · obtain ⟨hhigh,hlow⟩ : (v.a ++ v.b : Segment) = (0 : Segment) ∧
            (v.c ++ v.d : Segment) = (1 : Segment) := by
          simpa [Ipv6Addr.isLoopback,Ipv6Addr.segments] using hspecial
        rw [hhigh,hlow]
        rfl
    · left
      rw [not_or,Bool.not_eq_true,Bool.not_eq_true] at hspecial
      obtain ⟨hunspecified,hloopback⟩ := hspecial
      simp only [canonical,Ipv6Addr.toIpv4Mapped,hunspecified,hloopback]
      simp [Ipv6Addr.segments,hsplit]
  | sixToFour =>
    left
    simp [canonical,Ipv6Addr.toIpv4Mapped,Ipv6Addr.segments,hsplit]
  | translated =>
    left
    simp [canonical,Ipv6Addr.toIpv4Mapped,Ipv6Addr.segments,hsplit]

/-- In production a spelling is permitted only if the IPv4 address is. -/
theorem permits_of_spells (hprofile : policy.profile = .production) (h : Spells s v)
    (hpermits : policy.permits (.v6 s) = true) : policy.permits (.v4 v) = true := by
  rw [permits_iff] at hpermits ⊢
  rcases canonical_of_spells h with hcanonical | ⟨hcanonical,hspecial⟩
  · rw [hcanonical] at hpermits
    exact hpermits
  · have hpublic : isPublicV6 s = false := by
      rcases hspecial with hspecial | hspecial <;> simp [isPublicV6,hspecial]
    have hrefused : isPublic (.v6 s) = false := by
      rw [isPublic,hcanonical]
      exact hpublic
    obtain ⟨_,hadmits⟩ := hpermits
    rw [hcanonical] at hadmits
    rcases hadmits with hadmits | ⟨hadmits,_⟩
    · rw [hrefused] at hadmits
      cases hadmits
    · rw [hprofile] at hadmits
      cases hadmits

theorem permits_v4_eq_false
    (h : (∃ range ∈ policy.denied, range.Covers (.v4 v)) ∨
      ∃ block ∈ specialV4, block.Covers (.v4 v))
    (hprofile : policy.profile = .production) : policy.permits (.v4 v) = false := by
  rw [← Bool.not_eq_true,permits_iff]
  rintro ⟨hnone,hadmits⟩
  rcases h with ⟨range,hrange,hcovers⟩ | hspecial
  · exact hnone range hrange hcovers
  · have hpublic : isPublic (.v4 v) = false := (isPublicV4_eq_false v).mpr hspecial
    rcases hadmits with hadmits | ⟨hadmits,_⟩
    · rw [show canonical (.v4 v) = .v4 v from rfl,hpublic] at hadmits
      cases hadmits
    · rw [hprofile] at hadmits
      cases hadmits

/-- No IPv6 spelling rescues a refused IPv4 address, and matching never panics. -/
theorem no_spelling_rescues (hprofile : policy.profile = .production) (h : Spells s v) :
    (policy.permits (.v6 s) = true → policy.permits (.v4 v) = true) ∧
      ((∃ range ∈ policy.denied, range.Covers (.v4 v)) ∨
          (∃ block ∈ specialV4, block.Covers (.v4 v)) → policy.permits (.v6 s) = false) ∧
      ∀ (range : Cidr) (address : IpAddr),
        range.containsChecked address = some (range.contains address) := by
  refine ⟨permits_of_spells hprofile h,fun hrefused => ?_,containsChecked_eq⟩
  rw [← Bool.not_eq_true]
  intro hpermits
  have hv4 := permits_of_spells hprofile h hpermits
  rw [permits_v4_eq_false hrefused hprofile] at hv4
  cases hv4

/-- `::ffff:10.42.0.7` is a node of the cluster. -/
theorem no_spelling_rescues_node :
    (⟨.production,[clusterRange]⟩ : DestinationPolicy).permits
      (.v6 ⟨0,0,0,0,0,0xffff,0x0a2a,0x0007⟩) = false :=
  (no_spelling_rescues rfl (Spells.mapped ⟨10,42,0,7⟩)).2.1
    (.inl ⟨clusterRange,List.mem_singleton.mpr rfl,by unfold clusterRange; decide⟩)

end
end HearthAI.Fetch
