import Mathlib

/-! # Lowercase hexadecimal encoding of byte strings -/
namespace HearthAI.Hex

def hexDigit (n : ℕ) : Char := if n < 10 then Char.ofNat (48 + n) else Char.ofNat (87 + n)
def hexByte (b : UInt8) : List Char := [hexDigit (b.toNat / 16),hexDigit (b.toNat % 16)]
def hexEncode (bs : List UInt8) : List Char := bs.flatMap hexByte

/-- The characters an encoding is made of. -/
def IsHexDigit (c : Char) : Prop := ∃ n < 16, c = hexDigit n

theorem hexDigit_injOn {m n : ℕ} (hm : m < 16) (hn : n < 16) (h : hexDigit m = hexDigit n) :
    m = n := by
  interval_cases m <;> interval_cases n <;> first | rfl | exact absurd h (by decide)

theorem hexByte_injective {a b : UInt8} (h : hexByte a = hexByte b) : a = b := by
  simp only [hexByte,List.cons.injEq,and_true] at h
  have ha := a.toNat_lt
  have hb := b.toNat_lt
  have hhigh := hexDigit_injOn (by omega) (by omega) h.1
  have hlow := hexDigit_injOn (by omega) (by omega) h.2
  apply UInt8.toNat_inj.mp
  omega

@[simp] theorem hexEncode_nil : hexEncode [] = [] := rfl
@[simp] theorem hexEncode_cons (b : UInt8) (bs : List UInt8) :
    hexEncode (b :: bs) = hexByte b ++ hexEncode bs := rfl

@[simp] theorem hexEncode_length (bs : List UInt8) : (hexEncode bs).length = 2 * bs.length := by
  induction bs with
  | nil => rfl
  | cons b bs ih =>
    simp only [hexEncode_cons,List.length_append,List.length_cons,ih]
    simp only [hexByte,List.length_cons,List.length_nil]
    omega

/-- Encoding reflects the prefix order, so in particular it is injective. -/
theorem isPrefix_of_hexEncode {xs ys : List UInt8} (h : hexEncode xs <+: hexEncode ys) :
    xs <+: ys := by
  induction xs generalizing ys with
  | nil => exact List.nil_prefix
  | cons x xs ih =>
    cases ys with
    | nil => simp [hexByte] at h
    | cons y ys =>
      obtain ⟨rest,hrest⟩ := h
      rw [hexEncode_cons,hexEncode_cons,List.append_assoc] at hrest
      obtain ⟨hbyte,htail⟩ := List.append_inj hrest rfl
      rw [hexByte_injective hbyte]
      exact List.prefix_cons_inj y |>.mpr (ih ⟨rest,htail⟩)

theorem hexEncode_injective : Function.Injective hexEncode := by
  intro xs ys h
  exact (isPrefix_of_hexEncode (h ▸ List.prefix_rfl)).eq_of_length
    (by have := congrArg List.length h; simp at this; omega)

theorem isHexDigit_of_mem {bs : List UInt8} {c : Char} (h : c ∈ hexEncode bs) : IsHexDigit c := by
  obtain ⟨b,_,hc⟩ := List.mem_flatMap.mp h
  have hb := b.toNat_lt
  simp only [hexByte,List.mem_cons,List.not_mem_nil,or_false] at hc
  rcases hc with rfl | rfl
  · exact ⟨_,by omega,rfl⟩
  · exact ⟨_,by omega,rfl⟩

/-- A property of the sixteen digits is a property of every encoding. -/
theorem forall_mem_hexEncode {p : Char → Prop} (h : ∀ n < 16, p (hexDigit n)) (bs : List UInt8) :
    ∀ c ∈ hexEncode bs, p c := by
  intro c hc
  obtain ⟨n,hn,rfl⟩ := isHexDigit_of_mem hc
  exact h n hn

end HearthAI.Hex
