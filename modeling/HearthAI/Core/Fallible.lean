import Mathlib

/-! # When a sequence of fallible computations succeeds -/
namespace HearthAI
variable {ε ε' α β : Type}

theorem ok_bind (a : α) (f : α → Except ε β) : ((.ok a : Except ε α) >>= f) = f a := rfl

/-- A sequence succeeds exactly when both of its parts do. -/
theorem bind_eq_ok {m : Except ε α} {f : α → Except ε β} {b : β} :
    (m >>= f) = .ok b ↔ ∃ a, m = .ok a ∧ f a = .ok b := by
  cases m with
  | ok a => simp [Bind.bind,Except.bind]
  | error e => simp [Bind.bind,Except.bind]

theorem bind_eq_error {m : Except ε α} {f : α → Except ε β} {e : ε} :
    (m >>= f) = .error e ↔ m = .error e ∨ ∃ a, m = .ok a ∧ f a = .error e := by
  cases m with
  | ok a => simp [Bind.bind,Except.bind]
  | error e => simp [Bind.bind,Except.bind]

theorem mapError_eq_ok {r : Except ε α} {f : ε → ε'} {a : α} :
    r.mapError f = .ok a ↔ r = .ok a := by
  cases r <;> simp [Except.mapError]

theorem mapError_eq_error {r : Except ε α} {f : ε → ε'} {e' : ε'} :
    r.mapError f = .error e' ↔ ∃ e, r = .error e ∧ f e = e' := by
  cases r <;> simp [Except.mapError]

/-- What a fallible map yields, it yields for some element. -/
theorem mem_of_mapM {f : α → Except ε β} {l : List α} {r : List β} (h : l.mapM f = .ok r) {b : β} :
    b ∈ r ↔ ∃ a ∈ l, f a = .ok b := by
  induction l generalizing r with
  | nil =>
    obtain rfl := Except.ok.inj h
    simp
  | cons a l ih =>
    rw [List.mapM_cons] at h
    obtain ⟨first,hfirst,h⟩ := bind_eq_ok.mp h
    obtain ⟨rest,hrest,h⟩ := bind_eq_ok.mp h
    obtain rfl := Except.ok.inj h
    rw [List.mem_cons,ih hrest]
    simp [hfirst,eq_comm]

/-! ## Errors outside of a class of errors -/

section
variable {P : ε → Prop}

/-- The computation ends in an error that is not of the class. -/
def Escapes (P : ε → Prop) (r : Except ε α) : Prop := ∃ e, r = .error e ∧ ¬P e

@[simp] theorem not_escapes_ok {a : α} : ¬Escapes P (.ok a : Except ε α) := by simp [Escapes]
@[simp] theorem not_escapes_pure {a : α} : ¬Escapes P (pure a : Except ε α) := not_escapes_ok

@[simp] theorem escapes_error {e : ε} : Escapes P (.error e : Except ε α) ↔ ¬P e := by
  simp [Escapes]

/-- A sequence escapes in its first part, or in its second after the first succeeds. -/
theorem escapes_bind {m : Except ε α} {f : α → Except ε β} :
    Escapes P (m >>= f) ↔ Escapes P m ∨ ∃ a, m = .ok a ∧ Escapes P (f a) := by
  cases m with
  | ok a => simp [Bind.bind,Except.bind]
  | error e => simp [Bind.bind,Except.bind]

theorem not_escapes_bind {m : Except ε α} {f : α → Except ε β} (hm : ¬Escapes P m)
    (hf : ∀ a, m = .ok a → ¬Escapes P (f a)) : ¬Escapes P (m >>= f) := by
  rw [escapes_bind]
  rintro (h | ⟨a,ha,h⟩)
  · exact hm h
  · exact hf a ha h

/-- A fallible map escapes at the first element that does not succeed. -/
theorem escapes_mapM {f : α → Except ε β} {l : List α} :
    Escapes P (l.mapM f) ↔ ∃ before a after, l = before ++ a :: after ∧
      (∀ b ∈ before, ∃ r, f b = .ok r) ∧ Escapes P (f a) := by
  induction l with
  | nil => simp
  | cons first l ih =>
    rw [List.mapM_cons,escapes_bind]
    constructor
    · rintro (h | ⟨r,hr,h⟩)
      · exact ⟨[],first,l,rfl,nofun,h⟩
      · rw [escapes_bind] at h
        obtain h | ⟨_,_,h⟩ := h
        · obtain ⟨before,a,after,rfl,hbefore,ha⟩ := ih.mp h
          exact ⟨first :: before,a,after,rfl,List.forall_mem_cons.mpr ⟨⟨r,hr⟩,hbefore⟩,ha⟩
        · exact absurd h not_escapes_pure
    · rintro ⟨before,a,after,hl,hbefore,ha⟩
      cases before with
      | nil =>
        obtain ⟨rfl,_⟩ := List.cons.inj hl
        exact .inl ha
      | cons b before =>
        obtain ⟨rfl,rfl⟩ := List.cons.inj hl
        obtain ⟨⟨r,hr⟩,hbefore⟩ := List.forall_mem_cons.mp hbefore
        exact .inr ⟨r,hr,escapes_bind.mpr (.inl (ih.mpr ⟨before,a,after,rfl,hbefore,ha⟩))⟩

end

end HearthAI
