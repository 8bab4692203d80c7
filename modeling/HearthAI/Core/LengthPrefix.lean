import Mathlib

/-! # Length-prefixed concatenation of byte strings

Every part is preceded by its length in a fixed number of big-endian bytes. Two
sequences of parts with the same concatenation are then the same sequence, as
long as the lengths fit. The last part needs no bound: it is what remains.
-/
namespace HearthAI.LengthPrefix

/-- The `width` low-order base-256 digits of `n`, most significant first. -/
def bigEndian : ℕ → ℕ → List UInt8
  | 0, _ => []
  | width + 1, n => bigEndian width (n / 256) ++ [UInt8.ofNat n]

@[simp] theorem bigEndian_length (width n : ℕ) : (bigEndian width n).length = width := by
  induction width generalizing n with
  | zero => rfl
  | succ width ih => simp [bigEndian,ih]

theorem bigEndian_injOn {width m n : ℕ} (hm : m < 256 ^ width) (hn : n < 256 ^ width)
    (h : bigEndian width m = bigEndian width n) : m = n := by
  induction width generalizing m n with
  | zero => omega
  | succ width ih =>
    rw [Nat.pow_succ] at hm hn
    obtain ⟨hhigh,hlow⟩ := List.append_inj h (by simp)
    have hquotient := ih (Nat.div_lt_of_lt_mul (by omega)) (Nat.div_lt_of_lt_mul (by omega)) hhigh
    have hremainder := congrArg UInt8.toNat (List.singleton_inj.mp hlow)
    simp only [UInt8.toNat_ofNat'] at hremainder
    omega

def framePart (width : ℕ) (part : List UInt8) : List UInt8 :=
  bigEndian width part.length ++ part

def frame (width : ℕ) (parts : List (List UInt8)) : List UInt8 := parts.flatMap (framePart width)

@[simp] theorem frame_nil (width : ℕ) : frame width [] = [] := rfl
@[simp] theorem frame_cons (width : ℕ) (part : List UInt8) (parts : List (List UInt8)) :
    frame width (part :: parts) = framePart width part ++ frame width parts := rfl

/-- A bounded part can be read off the front. -/
theorem framePart_append_inj {width : ℕ} {p q rest rest' : List UInt8}
    (hp : p.length < 256 ^ width) (hq : q.length < 256 ^ width)
    (h : framePart width p ++ rest = framePart width q ++ rest') : p = q ∧ rest = rest' := by
  simp only [framePart,List.append_assoc] at h
  obtain ⟨hlength,htail⟩ := List.append_inj h (by simp)
  exact List.append_inj htail (bigEndian_injOn hp hq hlength)

theorem frame_snoc_injective {width : ℕ} {xs ys : List (List UInt8)} {p q : List UInt8}
    (hcount : xs.length = ys.length) (hxs : ∀ x ∈ xs, x.length < 256 ^ width)
    (hys : ∀ y ∈ ys, y.length < 256 ^ width)
    (h : frame width (xs ++ [p]) = frame width (ys ++ [q])) : xs = ys ∧ p = q := by
  induction xs generalizing ys with
  | nil =>
    obtain rfl : ys = [] := List.length_eq_zero_iff.mp hcount.symm
    simp only [List.nil_append,frame_cons,frame_nil,List.append_nil,framePart] at h
    exact ⟨rfl,(List.append_inj h (by simp)).2⟩
  | cons x xs ih =>
    cases ys with
    | nil => simp at hcount
    | cons y ys =>
      have hx := List.forall_mem_cons.mp hxs
      have hy := List.forall_mem_cons.mp hys
      obtain ⟨rfl,hrest⟩ := framePart_append_inj hx.1 hy.1 h
      obtain ⟨rfl,hlast⟩ := ih (by simpa using hcount) hx.2 hy.2 hrest
      exact ⟨rfl,hlast⟩

end HearthAI.LengthPrefix
