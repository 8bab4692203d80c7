import Mathlib

/-! # Numbers written in digits of equal width, and their leading bits -/
namespace HearthAI.BigEndian
variable {w : ℕ}

/-- The number that a list of digits writes, the first digit being the highest. -/
def number : List (BitVec w) → ℕ
  | [] => 0
  | d :: ds => d.toNat * 2 ^ (w * ds.length) + number ds

/-- The first `p` of the `width` bits of a number. -/
def leading (width p n : ℕ) : ℕ := n / 2 ^ (width - p)

/-- A mask of high bits clears the bits below it. -/
theorem toNat_and_mask (x : BitVec w) (k : ℕ) :
    (x &&& (BitVec.allOnes w <<< k)).toNat = x.toNat / 2 ^ k * 2 ^ k := by
  have hshift : x &&& (BitVec.allOnes w <<< k) = (x >>> k) <<< k := by
    ext i hi
    simp only [BitVec.getElem_and,BitVec.getElem_shiftLeft,BitVec.getElem_allOnes,
      BitVec.getElem_ushiftRight]
    by_cases hik : i < k
    · simp [hik]
    · have hsub : k + (i - k) = i := by omega
      simp [hik,hsub,BitVec.getLsbD_eq_getElem hi]
  have hle : x.toNat / 2 ^ k * 2 ^ k < 2 ^ w :=
    lt_of_le_of_lt (Nat.div_mul_le_self _ _) x.isLt
  rw [hshift,BitVec.toNat_shiftLeft,BitVec.toNat_ushiftRight,Nat.shiftLeft_eq,
    Nat.shiftRight_eq_div_pow,Nat.mod_eq_of_lt hle]

theorem and_mask_eq_iff (x y : BitVec w) (k : ℕ) :
    x &&& (BitVec.allOnes w <<< k) = y &&& (BitVec.allOnes w <<< k) ↔
      x.toNat / 2 ^ k = y.toNat / 2 ^ k := by
  rw [← BitVec.toNat_inj,toNat_and_mask,toNat_and_mask]
  exact Nat.mul_left_inj (Nat.two_pow_pos k).ne'

theorem number_lt (ds : List (BitVec w)) : number ds < 2 ^ (w * ds.length) := by
  induction ds with
  | nil => exact Nat.two_pow_pos _
  | cons d ds ih =>
    have hle : (d.toNat + 1) * 2 ^ (w * ds.length) ≤ 2 ^ w * 2 ^ (w * ds.length) :=
      Nat.mul_le_mul_right _ d.isLt
    rw [number,List.length_cons,Nat.mul_succ,Nat.add_comm (w * ds.length),Nat.pow_add]
    rw [Nat.add_mul] at hle
    omega

theorem pow_split {p : ℕ} {ds : List (BitVec w)} (hp : p ≤ w * ds.length) :
    2 ^ (w * ds.length) = 2 ^ p * 2 ^ (w * ds.length - p) := by
  rw [← Nat.pow_add,Nat.add_sub_cancel' hp]

theorem leading_lt {p : ℕ} {ds : List (BitVec w)} (hp : p ≤ w * ds.length) :
    leading (w * ds.length) p (number ds) < 2 ^ p := by
  rw [leading,Nat.div_lt_iff_lt_mul (Nat.two_pow_pos _),← pow_split hp]
  exact number_lt ds

/-- Leading bits that the first digit has. -/
theorem leading_cons_of_le {p : ℕ} (hp : p ≤ w) (d : BitVec w) (ds : List (BitVec w)) :
    leading (w * (d :: ds).length) p (number (d :: ds)) = d.toNat / 2 ^ (w - p) := by
  have hwidth : w * (d :: ds).length - p = w * ds.length + (w - p) := by
    rw [List.length_cons,Nat.mul_succ]
    omega
  have hhigh : number (d :: ds) / 2 ^ (w * ds.length) = d.toNat := by
    rw [number,Nat.add_comm,Nat.add_mul_div_right _ _ (Nat.two_pow_pos _),
      Nat.div_eq_of_lt (number_lt ds),Nat.zero_add]
  rw [leading,hwidth,Nat.pow_add,← Nat.div_div_eq_div_mul,hhigh]

/-- More leading bits are the first digit and the leading bits of the rest. -/
theorem leading_cons {p : ℕ} (d : BitVec w) {ds : List (BitVec w)} (hp : p ≤ w * ds.length) :
    leading (w * (d :: ds).length) (p + w) (number (d :: ds)) =
      d.toNat * 2 ^ p + leading (w * ds.length) p (number ds) := by
  have hwidth : w * (d :: ds).length - (p + w) = w * ds.length - p := by
    rw [List.length_cons,Nat.mul_succ]
    omega
  rw [leading,leading,hwidth,number,pow_split hp,← Nat.mul_assoc,Nat.add_comm,
    Nat.add_mul_div_right _ _ (Nat.two_pow_pos _),Nat.add_comm]

theorem leading_cons_eq_iff {p : ℕ} (d d' : BitVec w) {ds ds' : List (BitVec w)}
    (hlength : ds.length = ds'.length) (hp : p ≤ w * ds.length) :
    leading (w * (d :: ds).length) (p + w) (number (d :: ds)) =
        leading (w * (d' :: ds').length) (p + w) (number (d' :: ds')) ↔
      d = d' ∧ leading (w * ds.length) p (number ds) = leading (w * ds'.length) p (number ds') := by
  have hlt := leading_lt hp
  have hlt' := leading_lt (hlength ▸ hp)
  rw [leading_cons d hp,leading_cons d' (hlength ▸ hp)]
  constructor
  · intro h
    have hhigh := congrArg (· / 2 ^ p) h
    have hlow := congrArg (· % 2 ^ p) h
    simp only [Nat.mul_add_mod',Nat.mod_eq_of_lt hlt,Nat.mod_eq_of_lt hlt'] at hlow
    simp only [Nat.mul_comm _ (2 ^ p),Nat.mul_add_div (Nat.two_pow_pos p),Nat.div_eq_of_lt hlt,
      Nat.div_eq_of_lt hlt',Nat.add_zero] at hhigh
    exact ⟨BitVec.eq_of_toNat_eq hhigh,hlow⟩
  · rintro ⟨rfl,h⟩
    rw [h]

/-- The bits of whole digits agree exactly when the digits do. -/
theorem leading_eq_iff_take {k : ℕ} {ds ds' : List (BitVec w)} (hlength : ds.length = ds'.length)
    (hk : k ≤ ds.length) : leading (w * ds.length) (w * k) (number ds) =
      leading (w * ds'.length) (w * k) (number ds') ↔ ds.take k = ds'.take k := by
  induction k generalizing ds ds' with
  | zero =>
    have hzero : ∀ ds : List (BitVec w), leading (w * ds.length) (w * 0) (number ds) = 0 :=
      fun ds => Nat.div_eq_of_lt (number_lt ds)
    rw [hzero,hzero]
    exact iff_of_true rfl rfl
  | succ k ih =>
    obtain ⟨d,ds,rfl⟩ := List.exists_cons_of_length_pos (Nat.lt_of_lt_of_le k.succ_pos hk)
    obtain ⟨d',ds',rfl⟩ := List.exists_cons_of_length_eq_add_one hlength.symm
    have hlength : ds.length = ds'.length := Nat.succ.inj hlength
    have hk : k ≤ ds.length := Nat.le_of_succ_le_succ hk
    rw [Nat.mul_succ,leading_cons_eq_iff d d' hlength (Nat.mul_le_mul_left w hk),ih hlength hk,
      List.take_succ_cons,List.take_succ_cons,List.cons.injEq]

end HearthAI.BigEndian
