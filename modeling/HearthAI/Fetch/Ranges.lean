import HearthAI.Core.BigEndian
import HearthAI.Fetch.Policy

/-! # Address ranges as numbers

A range covers the addresses of its family whose number starts with the same bits. The
comparison of octets under a mask decides exactly that, and never reads past the octets.
-/
namespace HearthAI.Fetch
open BigEndian (number leading leading_cons_of_le leading_cons_eq_iff and_mask_eq_iff)

def IpAddr.octets : IpAddr → List Octet
  | .v4 address => address.octets
  | .v6 address => address.octets

/-- The address as one number of 32 or 128 bits. -/
def IpAddr.number (address : IpAddr) : ℕ := BigEndian.number address.octets

/-- The address is of the family of the range and starts with the same bits. -/
def Cidr.Covers (range : Cidr) (address : IpAddr) : Prop :=
  address.width = range.network.width ∧
    leading address.width range.prefixLen address.number =
      leading range.network.width range.prefixLen range.network.number

instance (range : Cidr) (address : IpAddr) : Decidable (range.Covers address) :=
  inferInstanceAs (Decidable (_ ∧ _))

section
variable {ns cs : List Octet} {p : ℕ}

theorem matchesPrefix_of_lt {n c : Octet} (hp : p < 8) :
    matchesPrefix (n :: ns) (c :: cs) p = true ↔
      n.toNat / 2 ^ (8 - p) = c.toNat / 2 ^ (8 - p) := by
  have hdiv : p / 8 = 0 := Nat.div_eq_of_lt hp
  have hmod : p % 8 = p := Nat.mod_eq_of_lt hp
  unfold matchesPrefix
  simp only [hdiv,hmod,List.take_zero,ne_eq,not_true_eq_false,if_false,List.getD_cons_zero]
  split_ifs with hzero
  · have hn : n.toNat / 2 ^ (8 - p) = 0 := Nat.div_eq_of_lt (by rw [hzero]; exact n.isLt)
    have hc : c.toNat / 2 ^ (8 - p) = 0 := Nat.div_eq_of_lt (by rw [hzero]; exact c.isLt)
    exact iff_of_true rfl (hn.trans hc.symm)
  · rw [beq_iff_eq]
    exact and_mask_eq_iff n c (8 - p)

theorem matchesPrefix_cons (n c : Octet) (ns cs : List Octet) (p : ℕ) :
    matchesPrefix (n :: ns) (c :: cs) (p + 8) = true ↔ n = c ∧ matchesPrefix ns cs p = true := by
  have hdiv : (p + 8) / 8 = p / 8 + 1 := by omega
  unfold matchesPrefix
  rw [hdiv,Nat.add_mod_right]
  simp only [List.take_succ_cons,List.getD_cons_succ,ne_eq,List.cons.injEq]
  by_cases hnc : n = c
  · simp only [hnc,true_and]
  · simp [hnc]

/-- Octets match under a prefix exactly when their numbers start with the same bits. -/
theorem matchesPrefix_iff (ns cs : List Octet) (hlength : ns.length = cs.length)
    (hp : p ≤ 8 * ns.length) : matchesPrefix ns cs p = true ↔
      leading (8 * ns.length) p (number ns) = leading (8 * cs.length) p (number cs) := by
  induction ns generalizing cs p with
  | nil =>
    obtain rfl := List.length_eq_zero_iff.mp hlength.symm
    obtain rfl := Nat.le_zero.mp hp
    exact iff_of_true rfl rfl
  | cons n ns ih =>
    obtain ⟨c,cs,rfl⟩ := List.exists_cons_of_length_eq_add_one hlength.symm
    have hlength : ns.length = cs.length := Nat.succ.inj hlength
    rcases Nat.lt_or_ge p 8 with hlt | hge
    · rw [matchesPrefix_of_lt hlt,leading_cons_of_le hlt.le,leading_cons_of_le hlt.le]
    · obtain ⟨q,rfl⟩ := Nat.exists_eq_add_of_le' hge
      have hq : q ≤ 8 * ns.length := by
        rw [List.length_cons] at hp
        omega
      rw [matchesPrefix_cons,leading_cons_eq_iff n c hlength hq,ih cs hlength hq]

end

section
variable {range : Cidr} {address : IpAddr}

theorem canonical_idem (address : IpAddr) : canonical (canonical address) = canonical address := by
  cases address with
  | v4 v4 => rfl
  | v6 v6 =>
    cases hcanonical : canonical (.v6 v6) with
    | v4 v4 => rfl
    | v6 v6' =>
      have hsame : v6' = v6 := by
        simp only [canonical] at hcanonical
        split at hcanonical
        · cases hcanonical
        · split_ifs at hcanonical
          exact (IpAddr.v6.inj hcanonical).symm
      rw [hsame] at hcanonical ⊢
      exact hcanonical

/-- A range contains the addresses whose reduced form it covers. -/
theorem contains_iff : range.contains address = true ↔ range.Covers (canonical address) := by
  obtain ⟨network,p,hbounded⟩ := range
  unfold Cidr.contains Cidr.Covers IpAddr.number
  have hwidths : (32 : ℕ) ≠ 128 := by decide
  cases network with
  | v4 network =>
    cases canonical address with
    | v4 candidate =>
      have hmatch := matchesPrefix_iff network.octets candidate.octets rfl hbounded
      exact hmatch.trans ⟨fun h => ⟨rfl,h.symm⟩,fun h => h.2.symm⟩
    | v6 candidate => exact iff_of_false Bool.false_ne_true fun h => hwidths h.1.symm
  | v6 network =>
    cases canonical address with
    | v4 candidate => exact iff_of_false Bool.false_ne_true fun h => hwidths h.1
    | v6 candidate =>
      have hmatch := matchesPrefix_iff network.octets candidate.octets rfl hbounded
      exact hmatch.trans ⟨fun h => ⟨rfl,h.symm⟩,fun h => h.2.symm⟩

/-- What is left of the policy when no listed range is in the way. -/
def DestinationPolicy.Admits (policy : DestinationPolicy) (address : IpAddr) : Prop :=
  isPublic address = true ∨ policy.profile = .test ∧ address.isLoopback = true

instance (policy : DestinationPolicy) (address : IpAddr) : Decidable (policy.Admits address) :=
  inferInstanceAs (Decidable (_ ∨ _))

theorem permits_iff {policy : DestinationPolicy} : policy.permits address = true ↔
    (∀ range ∈ policy.denied, ¬range.Covers (canonical address)) ∧
      policy.Admits (canonical address) := by
  have hany : policy.denied.any (fun range => range.contains (canonical address)) = true ↔
      ∃ range ∈ policy.denied, range.Covers (canonical address) := by
    simp only [List.any_eq_true,contains_iff,canonical_idem]
  unfold DestinationPolicy.permits DestinationPolicy.Admits
  dsimp only
  split_ifs with hdenied hpublic
  · obtain ⟨range,hrange,hcovers⟩ := hany.mp hdenied
    exact iff_of_false (by simp) fun h => h.1 range hrange hcovers
  · refine iff_of_true rfl ⟨fun range hrange hcovers => ?_,.inl hpublic⟩
    exact hdenied (hany.mpr ⟨range,hrange,hcovers⟩)
  · rw [Bool.and_eq_true,beq_iff_eq]
    constructor
    · intro h
      exact ⟨fun range hrange hcovers => hdenied (hany.mpr ⟨range,hrange,hcovers⟩),.inr h⟩
    · rintro ⟨_,h⟩
      exact h.resolve_left hpublic

end
end HearthAI.Fetch
