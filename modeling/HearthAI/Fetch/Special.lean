import HearthAI.Fetch.Ranges

/-! # The built-in ranges, and what is left of each family without them

The tests on octets and segments are memberships in ranges of addresses.
-/
namespace HearthAI.Fetch
open BigEndian (number leading leading_cons_of_le leading_cons_eq_iff leading_eq_iff_take
  and_mask_eq_iff)

/-- The special ranges of IPv4. -/
def specialV4 : List Cidr :=
  [⟨.v4 ⟨0,0,0,0⟩,8,by decide⟩,⟨.v4 ⟨10,0,0,0⟩,8,by decide⟩,⟨.v4 ⟨100,64,0,0⟩,10,by decide⟩,
    ⟨.v4 ⟨127,0,0,0⟩,8,by decide⟩,⟨.v4 ⟨169,254,0,0⟩,16,by decide⟩,
    ⟨.v4 ⟨172,16,0,0⟩,12,by decide⟩,⟨.v4 ⟨192,0,0,0⟩,24,by decide⟩,
    ⟨.v4 ⟨192,0,2,0⟩,24,by decide⟩,⟨.v4 ⟨192,88,99,0⟩,24,by decide⟩,
    ⟨.v4 ⟨192,168,0,0⟩,16,by decide⟩,⟨.v4 ⟨198,18,0,0⟩,15,by decide⟩,
    ⟨.v4 ⟨198,51,100,0⟩,24,by decide⟩,⟨.v4 ⟨203,0,113,0⟩,24,by decide⟩,
    ⟨.v4 ⟨224,0,0,0⟩,4,by decide⟩,⟨.v4 ⟨240,0,0,0⟩,4,by decide⟩]


open BigEndian (leading_cons_of_le leading_cons_eq_iff)

/-- The special ranges of IPv6. -/
def specialV6 : List Cidr :=
  [⟨.v6 ⟨0,0,0,0,0,0,0,0⟩,128,by decide⟩,⟨.v6 ⟨0,0,0,0,0,0,0,1⟩,128,by decide⟩,
    ⟨.v6 ⟨0xff00,0,0,0,0,0,0,0⟩,8,by decide⟩,⟨.v6 ⟨0xfc00,0,0,0,0,0,0,0⟩,7,by decide⟩,
    ⟨.v6 ⟨0xfe80,0,0,0,0,0,0,0⟩,10,by decide⟩,⟨.v6 ⟨0xfec0,0,0,0,0,0,0,0⟩,10,by decide⟩,
    ⟨.v6 ⟨0x2001,0x0db8,0,0,0,0,0,0⟩,32,by decide⟩,⟨.v6 ⟨0x2001,0,0,0,0,0,0,0⟩,32,by decide⟩,
    ⟨.v6 ⟨0x0100,0,0,0,0,0,0,0⟩,64,by decide⟩]

/-- The block of ordinary IPv6 space. -/
def globalUnicast : Cidr := ⟨.v6 ⟨0x2000,0,0,0,0,0,0,0⟩,3,by decide⟩

section
variable {a b c d a' b' c' d' : Octet}

theorem covers_one {p : ℕ} (hp : p ≤ 8) (h : p ≤ (IpAddr.v4 ⟨a',b',c',d'⟩).width) :
    (⟨.v4 ⟨a',b',c',d'⟩,p,h⟩ : Cidr).Covers (.v4 ⟨a,b,c,d⟩) ↔
      a.toNat / 2 ^ (8 - p) = a'.toNat / 2 ^ (8 - p) := by
  have hlead := leading_cons_of_le hp a [b,c,d]
  have hlead' := leading_cons_of_le hp a' [b',c',d']
  refine (and_iff_right rfl).trans ?_
  exact ⟨fun h => hlead.symm.trans (h.trans hlead'),fun h => hlead.trans (h.trans hlead'.symm)⟩

theorem covers_two {p : ℕ} (hp : p ≤ 8) (h : p + 8 ≤ (IpAddr.v4 ⟨a',b',c',d'⟩).width) :
    (⟨.v4 ⟨a',b',c',d'⟩,p + 8,h⟩ : Cidr).Covers (.v4 ⟨a,b,c,d⟩) ↔
      a = a' ∧ b.toNat / 2 ^ (8 - p) = b'.toNat / 2 ^ (8 - p) := by
  have hlength : [b,c,d].length = [b',c',d'].length := rfl
  have hfit : p ≤ 8 * [b,c,d].length := hp.trans (by simp)
  have hstep := leading_cons_eq_iff a a' hlength hfit
  rw [leading_cons_of_le hp b [c,d],leading_cons_of_le hp b' [c',d']] at hstep
  exact (and_iff_right rfl).trans hstep

theorem covers_octets {network v4 : Ipv4Addr} (k : ℕ) (hk : k ≤ 4)
    (h : 8 * k ≤ (IpAddr.v4 network).width) :
    (⟨.v4 network,8 * k,h⟩ : Cidr).Covers (.v4 v4) ↔
      v4.octets.take k = network.octets.take k :=
  (and_iff_right rfl).trans (leading_eq_iff_take rfl hk)

/-- What is not public of IPv4 is what the special ranges cover. -/
theorem isPublicV4_eq_false (v4 : Ipv4Addr) :
    isPublicV4 v4 = false ↔ ∃ block ∈ specialV4, block.Covers (.v4 v4) := by
  obtain ⟨a,b,c,d⟩ := v4
  have ha := a.isLt
  have hshared : b.toNat / 64 = 1 ↔ 64 ≤ b.toNat ∧ b.toNat < 128 := by omega
  have hprivate : b.toNat / 16 = 1 ↔ 16 ≤ b.toNat ∧ b.toNat ≤ 31 := by omega
  have hbenchmark : b.toNat / 2 = 9 ↔ b.toNat = 18 ∨ b.toNat = 19 := by omega
  have hmulticast : a.toNat / 16 = 14 ↔ 224 ≤ a.toNat ∧ a.toNat ≤ 239 := by omega
  have hreserved : a.toNat / 16 = 15 ↔ 240 ≤ a.toNat := by omega
  simp only [specialV4,List.mem_cons,List.not_mem_nil,or_false,exists_eq_or_imp,exists_eq_left]
  rw [covers_octets 1 (by decide),covers_octets 1 (by decide),covers_two (p := 2) (by decide),
    covers_octets 1 (by decide),covers_octets 2 (by decide),covers_two (p := 4) (by decide),
    covers_octets 3 (by decide),covers_octets 3 (by decide),covers_octets 3 (by decide),
    covers_octets 2 (by decide),covers_two (p := 7) (by decide),covers_octets 3 (by decide),
    covers_octets 3 (by decide),covers_one (by decide),covers_one (by decide)]
  simp [isPublicV4,Ipv4Addr.isUnspecified,Ipv4Addr.isLoopback,Ipv4Addr.isPrivate,
    Ipv4Addr.isLinkLocal,Ipv4Addr.isMulticast,Ipv4Addr.isBroadcast,Ipv4Addr.isDocumentation,
    Ipv4Addr.octets,← BitVec.toNat_inj,BitVec.le_def,BitVec.lt_def,hshared,hprivate,hbenchmark,
    hmulticast,hreserved]
  grind

end

/-- The number of an IPv6 address is the one that its segments write. -/
theorem number_v6 (v6 : Ipv6Addr) : (IpAddr.v6 v6).number = number v6.segments := by
  have hsegment : ∀ s : Segment, s.toNat = (highByte s).toNat * 256 + (lowByte s).toNat := by
    intro s
    have := s.isLt
    simp only [highByte,lowByte,BitVec.toNat_setWidth,BitVec.toNat_ushiftRight,
      Nat.shiftRight_eq_div_pow]
    omega
  have hoctets : ∀ ss : List Segment,
      number (ss.flatMap fun s => [highByte s,lowByte s]) = number ss := by
    intro ss
    induction ss with
    | nil => rfl
    | cons s ss ih =>
      have hlength : (ss.flatMap fun s => [highByte s,lowByte s]).length = 2 * ss.length := by
        simp [List.length_flatMap,Nat.mul_comm]
      have hpow : 2 ^ (8 * (2 * ss.length + 1)) = 256 * 2 ^ (16 * ss.length) := by
        rw [← Nat.pow_add 2 8]
        congr 1
        omega
      have hpow' : 2 ^ (8 * (2 * ss.length)) = 2 ^ (16 * ss.length) := by
        congr 1
        omega
      rw [List.flatMap_cons,List.cons_append,List.singleton_append,number,number,number,ih,
        List.length_cons,hlength,hpow,hpow',hsegment s]
      ring
  exact hoctets v6.segments

theorem masked_iff {x n : Segment} (k : ℕ) (hn : n &&& (BitVec.allOnes 16 <<< k) = n) :
    x &&& (BitVec.allOnes 16 <<< k) = n ↔ x.toNat / 2 ^ k = n.toNat / 2 ^ k := by
  rw [← and_mask_eq_iff x n k,hn]

section
variable {network v6 : Ipv6Addr}

theorem covers_v6 {p : ℕ} (h : p ≤ (IpAddr.v6 network).width) :
    (⟨.v6 network,p,h⟩ : Cidr).Covers (.v6 v6) ↔
      leading (16 * v6.segments.length) p (number v6.segments) =
        leading (16 * network.segments.length) p (number network.segments) := by
  rw [← number_v6,← number_v6]
  exact and_iff_right rfl

/-- Ranges of IPv6 addresses by their segments. -/
theorem covers_segment {p : ℕ} (hp : p ≤ 16) (h : p ≤ (IpAddr.v6 network).width) :
    (⟨.v6 network,p,h⟩ : Cidr).Covers (.v6 v6) ↔
      v6.s0.toNat / 2 ^ (16 - p) = network.s0.toNat / 2 ^ (16 - p) := by
  rw [covers_v6,Ipv6Addr.segments,Ipv6Addr.segments,leading_cons_of_le hp,leading_cons_of_le hp]

theorem covers_segments (k : ℕ) (hk : k ≤ 8) (h : 16 * k ≤ (IpAddr.v6 network).width) :
    (⟨.v6 network,16 * k,h⟩ : Cidr).Covers (.v6 v6) ↔
      v6.segments.take k = network.segments.take k := by
  rw [covers_v6]
  exact leading_eq_iff_take rfl hk

end

/-- What is not public of IPv6 is what the special ranges cover. -/
theorem isPublicV6_eq_false (v6 : Ipv6Addr) :
    isPublicV6 v6 = false ↔ ∃ block ∈ specialV6, block.Covers (.v6 v6) := by
  have hmulticast : v6.s0 &&& 0xff00 = 0xff00 ↔ v6.s0.toNat / 2 ^ 8 = 0xff :=
    masked_iff 8 (by decide)
  have hlocal : v6.s0 &&& 0xfe00 = 0xfc00 ↔ v6.s0.toNat / 2 ^ 9 = 0x7e :=
    masked_iff 9 (by decide)
  have hlink : v6.s0 &&& 0xffc0 = 0xfe80 ↔ v6.s0.toNat / 2 ^ 6 = 0x3fa :=
    masked_iff 6 (by decide)
  have hsite : v6.s0 &&& 0xffc0 = 0xfec0 ↔ v6.s0.toNat / 2 ^ 6 = 0x3fb :=
    masked_iff 6 (by decide)
  simp only [specialV6,List.mem_cons,List.not_mem_nil,or_false,exists_eq_or_imp,exists_eq_left]
  rw [covers_segments 8 (by decide),covers_segments 8 (by decide),covers_segment (by decide),
    covers_segment (by decide),covers_segment (by decide),covers_segment (by decide),
    covers_segments 2 (by decide),covers_segments 2 (by decide),covers_segments 4 (by decide)]
  simp only [isPublicV6,Bool.not_eq_false',Bool.or_eq_true,Bool.and_eq_true,beq_iff_eq,
    Ipv6Addr.isUnspecified,Ipv6Addr.isLoopback,Ipv6Addr.isMulticast,hmulticast,hlocal,hlink,hsite]
  simp [Ipv6Addr.segments,or_assoc]

/-- In production the policy keeps an IPv6 address to ordinary space exactly when the address is
there, or some range, built in or listed, refuses it. -/
theorem unicast_only_iff {policy : DestinationPolicy} {v6 : Ipv6Addr}
    (hprofile : policy.profile = .production) (hcanonical : canonical (.v6 v6) = .v6 v6) :
    (policy.permits (.v6 v6) = true → globalUnicast.Covers (.v6 v6)) ↔
      globalUnicast.Covers (.v6 v6) ∨ (∃ block ∈ specialV6, block.Covers (.v6 v6)) ∨
        ∃ range ∈ policy.denied, range.Covers (.v6 v6) := by
  have hpublic : isPublic (.v6 v6) = isPublicV6 v6 := by
    rw [isPublic,hcanonical]
  have hadmits : policy.Admits (.v6 v6) ↔ isPublicV6 v6 = true := by
    rw [DestinationPolicy.Admits,hpublic,hprofile]
    exact or_iff_left fun h => Profile.noConfusion h.1
  rw [permits_iff,hcanonical,hadmits,← isPublicV6_eq_false]
  constructor
  · intro h
    by_cases hdenied : ∃ range ∈ policy.denied, range.Covers (.v6 v6)
    · exact .inr (.inr hdenied)
    · cases hv6 : isPublicV6 v6 with
      | false => exact .inr (.inl rfl)
      | true => exact .inl (h ⟨fun range hrange hcovers => hdenied ⟨range,hrange,hcovers⟩,hv6⟩)
  · rintro (hunicast | hspecial | ⟨range,hrange,hcovers⟩) ⟨hnone,hv6⟩
    · exact hunicast
    · rw [hspecial] at hv6
      cases hv6
    · exact absurd hcovers (hnone range hrange)

def clusterRange : Cidr := ⟨.v4 ⟨10,42,0,0⟩,16,by decide⟩

/-- An ordinary address that is permitted. -/
theorem unicast_only_page :
    globalUnicast.Covers (.v6 ⟨0x2606,0x2800,0x220,1,0x248,0x1893,0x25c8,0x1946⟩) := by
  have hcovers : globalUnicast.Covers
      (.v6 ⟨0x2606,0x2800,0x220,1,0x248,0x1893,0x25c8,0x1946⟩) := by decide
  have hpermits : (⟨.production,[clusterRange]⟩ : DestinationPolicy).permits
      (.v6 ⟨0x2606,0x2800,0x220,1,0x248,0x1893,0x25c8,0x1946⟩) = true := by decide
  exact (unicast_only_iff rfl (by decide)).mpr (.inl hcovers) hpermits

/-- `64:ff9b:1::a00:1` translates to `10.0.0.1` and is permitted. -/
theorem permits_translation :
    canonical (.v6 ⟨0x64,0xff9b,1,0,0,0,0xa00,1⟩) = .v6 ⟨0x64,0xff9b,1,0,0,0,0xa00,1⟩ ∧
      (⟨.production,[clusterRange]⟩ : DestinationPolicy).permits
        (.v6 ⟨0x64,0xff9b,1,0,0,0,0xa00,1⟩) = true ∧
      ¬globalUnicast.Covers (.v6 ⟨0x64,0xff9b,1,0,0,0,0xa00,1⟩) := by
  refine ⟨by decide,by decide,?_⟩
  unfold globalUnicast
  rw [covers_segment (by decide)]
  decide

end HearthAI.Fetch
