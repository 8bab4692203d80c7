import Mathlib

/-! # Stateful fallible computations and their triples

A computation reads and writes a state and may raise. The state reached before
the exception is kept, because the caller of a failed operation still sees it.
A triple speaks about both exits, so a property of failed runs is proved the
same way as a property of successful ones.
-/
namespace HearthAI

/-- A computation over `σ` that returns an `α` or raises an `ε`. -/
def Effect (ε σ α : Type) := σ → Except ε α × σ

namespace Effect
variable {ε σ α β : Type}

protected def pure (a : α) : Effect ε σ α := fun s => (.ok a,s)

protected def bind (m : Effect ε σ α) (f : α → Effect ε σ β) : Effect ε σ β := fun s =>
  match m s with
  | (.ok a,t) => f a t
  | (.error e,t) => (.error e,t)

instance : Monad (Effect ε σ) where
  pure := Effect.pure
  bind := Effect.bind

def raise (e : ε) : Effect ε σ α := fun s => (.error e,s)
def read : Effect ε σ σ := fun s => (.ok s,s)
def modify (f : σ → σ) : Effect ε σ Unit := fun s => (.ok (),f s)

def raiseIf (c : Prop) [Decidable c] (e : ε) : Effect ε σ Unit :=
  if c then raise e else Effect.pure ()

/-- A pure result, with its exception if it has one. -/
def lift (r : Except ε α) : Effect ε σ α := fun s => (r,s)

@[simp] theorem pure_apply (a : α) (s : σ) : (pure a : Effect ε σ α) s = (.ok a,s) := rfl
@[simp] theorem raise_apply (e : ε) (s : σ) : (raise e : Effect ε σ α) s = (.error e,s) := rfl
@[simp] theorem read_apply (s : σ) : (read : Effect ε σ σ) s = (.ok s,s) := rfl
@[simp] theorem modify_apply (f : σ → σ) (s : σ) :
    (modify f : Effect ε σ Unit) s = (.ok (),f s) := rfl
@[simp] theorem lift_apply (r : Except ε α) (s : σ) : (lift r : Effect ε σ α) s = (r,s) := rfl

theorem raiseIf_pos {c : Prop} [Decidable c] (h : c) (e : ε) (s : σ) :
    raiseIf c e s = (.error e,s) := by
  rw [raiseIf,if_pos h,raise_apply]

theorem raiseIf_neg {c : Prop} [Decidable c] (h : ¬c) (e : ε) (s : σ) :
    raiseIf c e s = (.ok (),s) := by
  rw [raiseIf,if_neg h]
  rfl

theorem bind_apply (m : Effect ε σ α) (f : α → Effect ε σ β) (s : σ) :
    (m >>= f) s = match m s with
      | (.ok a,t) => f a t
      | (.error e,t) => (.error e,t) := rfl

theorem bind_ok {m : Effect ε σ α} {f : α → Effect ε σ β} {s t : σ} {a : α}
    (h : m s = (.ok a,t)) : (m >>= f) s = f a t := by
  rw [bind_apply,h]

theorem bind_error {m : Effect ε σ α} {f : α → Effect ε σ β} {s t : σ} {e : ε}
    (h : m s = (.error e,t)) : (m >>= f) s = (.error e,t) := by
  rw [bind_apply,h]

theorem bind_assoc {γ : Type} (m : Effect ε σ α) (f : α → Effect ε σ β) (g : β → Effect ε σ γ) :
    (m >>= f) >>= g = m >>= fun a => f a >>= g := by
  funext s
  rcases hm : m s with ⟨e | a,t⟩
  · rw [bind_error hm,bind_error (bind_error hm)]
  · rw [bind_ok hm,bind_apply,bind_ok hm,← bind_apply]

/-- Wrapping the result leaves the exceptions alone. -/
theorem bind_pure_eq_error {m : Effect ε σ α} {f : α → β} {s t : σ} {e : ε} :
    (do let a ← m; return f a : Effect ε σ β) s = (.error e,t) ↔ m s = (.error e,t) := by
  rw [bind_apply]
  rcases m s with ⟨e' | a,u⟩ <;> simp

theorem bind_pure_eq_ok {m : Effect ε σ α} {f : α → β} {s t : σ} {b : β} :
    (do let a ← m; return f a : Effect ε σ β) s = (.ok b,t) ↔ ∃ a, m s = (.ok a,t) ∧ f a = b := by
  rw [bind_apply]
  rcases m s with ⟨e | a,u⟩
  · simp
  · simp only [pure_apply,Prod.mk.injEq,Except.ok.injEq]
    constructor
    · rintro ⟨hb,hu⟩
      exact ⟨a,⟨rfl,hu⟩,hb⟩
    · rintro ⟨_,⟨rfl,hu⟩,hb⟩
      exact ⟨hb,hu⟩

/-- The assertion that holds of the exit a run took. -/
def Exit (Q : α → σ → Prop) (E : ε → σ → Prop) : Except ε α × σ → Prop
  | (.ok a,t) => Q a t
  | (.error e,t) => E e t

@[simp] theorem exit_ok {Q : α → σ → Prop} {E : ε → σ → Prop} {a : α} {t : σ} :
    Exit Q E (.ok a,t) ↔ Q a t := Iff.rfl
@[simp] theorem exit_error {Q : α → σ → Prop} {E : ε → σ → Prop} {e : ε} {t : σ} :
    Exit Q E (.error e,t) ↔ E e t := Iff.rfl

/-- Whatever starts in `P` returns in `Q` or raises in `E`. -/
structure Triple (P : σ → Prop) (m : Effect ε σ α) (Q : α → σ → Prop) (E : ε → σ → Prop) :
    Prop where
  exits : ∀ s, P s → Exit Q E (m s)

variable {P P' : σ → Prop} {Q Q' : α → σ → Prop} {E E' : ε → σ → Prop}

theorem Triple.ok {m : Effect ε σ α} (h : Triple P m Q E) {s t : σ} {a : α} (hs : P s)
    (hm : m s = (.ok a,t)) : Q a t := by
  simpa only [hm,exit_ok] using h.exits s hs

theorem Triple.error {m : Effect ε σ α} (h : Triple P m Q E) {s t : σ} {e : ε} (hs : P s)
    (hm : m s = (.error e,t)) : E e t := by
  simpa only [hm,exit_error] using h.exits s hs

theorem Triple.consequence {m : Effect ε σ α} (h : Triple P m Q E) (hP : ∀ s, P' s → P s)
    (hQ : ∀ a s, Q a s → Q' a s) (hE : ∀ e s, E e s → E' e s) : Triple P' m Q' E' := by
  refine ⟨fun s hs => ?_⟩
  rcases hm : m s with ⟨e | a,t⟩
  · exact hE e t (h.error (hP s hs) hm)
  · exact hQ a t (h.ok (hP s hs) hm)

theorem Triple.return (a : α) (h : ∀ s, P s → Q a s) : Triple P (pure a : Effect ε σ α) Q E :=
  ⟨h⟩

theorem Triple.raise (e : ε) (h : ∀ s, P s → E e s) : Triple P (raise e : Effect ε σ α) Q E :=
  ⟨h⟩

theorem Triple.raiseIf {Q : Unit → σ → Prop} (c : Prop) [Decidable c] (e : ε)
    (hok : ¬c → ∀ s, P s → Q () s) (herror : c → ∀ s, P s → E e s) :
    Triple P (raiseIf c e) Q E := by
  refine ⟨fun s hs => ?_⟩
  by_cases hc : c
  · rw [Effect.raiseIf,if_pos hc]
    exact herror hc s hs
  · rw [Effect.raiseIf,if_neg hc]
    exact hok hc s hs

theorem Triple.lift {r : Except ε α} (hok : ∀ a, r = .ok a → ∀ s, P s → Q a s)
    (herror : ∀ e, r = .error e → ∀ s, P s → E e s) : Triple P (lift r) Q E := by
  refine ⟨fun s hs => ?_⟩
  cases r with
  | ok a => exact hok a rfl s hs
  | error e => exact herror e rfl s hs

theorem Triple.modify {Q : Unit → σ → Prop} (f : σ → σ) (h : ∀ s, P s → Q () (f s)) :
    Triple P (modify f) Q E := ⟨h⟩

theorem Triple.read {Q : σ → σ → Prop} (h : ∀ s, P s → Q s s) :
    Triple P (read : Effect ε σ σ) Q E := ⟨h⟩

/-- The intermediate assertion of a sequence may depend on the value passed on. -/
theorem Triple.bind {m : Effect ε σ α} {f : α → Effect ε σ β} {M : α → σ → Prop}
    {Q : β → σ → Prop} (hm : Triple P m M E) (hf : ∀ a, Triple (M a) (f a) Q E) :
    Triple P (m >>= f) Q E := by
  refine ⟨fun s hs => ?_⟩
  rcases hr : m s with ⟨e | a,t⟩
  · rw [bind_error hr]
    exact hm.error hs hr
  · rw [bind_ok hr]
    exact (hf a).exits t (hm.ok hs hr)

/-- A premise that does not mention the state is assumed once and for all. -/
theorem Triple.of_fact {p : Prop} {m : Effect ε σ α} (h : p → Triple P m Q E) :
    Triple (fun s => p ∧ P s) m Q E := ⟨fun s hs => (h hs.1).exits s hs.2⟩

end Effect
end HearthAI
