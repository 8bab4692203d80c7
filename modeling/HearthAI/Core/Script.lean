import HearthAI.Core.Effect

/-! # Scripts: what a computation has to get past before it returns

A script is a value together with the checks on the way to it, in order. Whether a
check passes depends on a meter, and passing it spends some of the meter. A
computation that follows a script returns exactly when all checks of the script pass.
-/
namespace HearthAI
variable {ε σ κ μ α β : Type}

inductive Script (κ α : Type)
  /-- No value is reached. -/
  | stop
  | reach (checks : List κ) (a : α)

namespace Script

protected def bind (script : Script κ α) (next : α → Script κ β) : Script κ β :=
  match script with
  | stop => stop
  | reach checks a =>
    match next a with
    | stop => stop
    | reach more b => reach (checks ++ more) b

instance : Monad (Script κ) where
  pure := reach []
  bind := Script.bind

def check (c : κ) : Script κ Unit := reach [c] ()

def ofExcept (r : Except ε α) : Script κ α :=
  match r with
  | .ok a => reach [] a
  | .error _ => stop

theorem pure_eq_reach {a b : α} {checks : List κ} :
    (pure a : Script κ α) = reach checks b ↔ checks = [] ∧ a = b := by
  show reach [] a = reach checks b ↔ _
  rw [reach.injEq,eq_comm (a := [])]

theorem bind_eq_reach {script : Script κ α} {next : α → Script κ β} {checks : List κ} {b : β} :
    script >>= next = reach checks b ↔ ∃ first a more, script = reach first a ∧
      next a = reach more b ∧ checks = first ++ more := by
  show Script.bind script next = reach checks b ↔ _
  cases script with
  | stop => simp [Script.bind]
  | reach first a =>
    unfold Script.bind
    constructor
    · intro h
      cases hnext : next a with
      | stop => simp [hnext] at h
      | reach more b' =>
        simp only [hnext,reach.injEq] at h
        exact ⟨first,a,more,rfl,by rw [hnext,h.2],h.1.symm⟩
    · rintro ⟨_,_,more,hreach,hnext,rfl⟩
      obtain ⟨rfl,rfl⟩ := reach.inj hreach
      simp only [hnext]

theorem ofExcept_eq_reach {r : Except ε α} {checks : List κ} {a : α} :
    (ofExcept r : Script κ α) = reach checks a ↔ checks = [] ∧ r = .ok a := by
  cases r with
  | error e => simp [ofExcept]
  | ok b => rw [ofExcept,reach.injEq,eq_comm (a := []),Except.ok.injEq]

@[simp] theorem ofExcept_mapError {ε' : Type} (r : Except ε α) (f : ε → ε') :
    (ofExcept (r.mapError f) : Script κ α) = ofExcept r := by
  cases r <;> rfl

end Script

/-- Checks against a meter. -/
structure Gauge (κ μ : Type) where
  Passes : μ → κ → Prop
  spend : μ → κ → μ

namespace Gauge
variable (gauge : Gauge κ μ)

/-- All checks pass, each against what the ones before it have left. -/
def All : μ → List κ → Prop
  | _, [] => True
  | meter, c :: checks => gauge.Passes meter c ∧ All (gauge.spend meter c) checks

def after (meter : μ) (checks : List κ) : μ := checks.foldl gauge.spend meter

variable {gauge}

theorem all_append {meter : μ} {checks more : List κ} : gauge.All meter (checks ++ more) ↔
    gauge.All meter checks ∧ gauge.All (gauge.after meter checks) more := by
  induction checks generalizing meter with
  | nil => simp [All,after]
  | cons c checks ih =>
    rw [List.cons_append,All,All,ih,and_assoc]
    rfl

theorem after_append (meter : μ) (checks more : List κ) :
    gauge.after meter (checks ++ more) = gauge.after (gauge.after meter checks) more :=
  List.foldl_append

end Gauge

/-- The computation returns the value of the script exactly when its checks pass, and has
then spent what they spend. -/
structure Follows (gauge : Gauge κ μ) (measure : σ → μ) (m : Effect ε σ α) (script : Script κ α) :
    Prop where
  returns : ∀ s checks a, script = .reach checks a → gauge.All (measure s) checks →
    ∃ t, m s = (.ok a,t)
  only : ∀ s a t, m s = (.ok a,t) → ∃ checks, script = .reach checks a ∧
    gauge.All (measure s) checks ∧ measure t = gauge.after (measure s) checks

namespace Follows
variable {gauge : Gauge κ μ} {measure : σ → μ} {m : Effect ε σ α} {script : Script κ α}

theorem returns_iff (h : Follows gauge measure m script) {s : σ} {a : α} :
    (∃ t, m s = (.ok a,t)) ↔ ∃ checks, script = .reach checks a ∧ gauge.All (measure s) checks := by
  constructor
  · rintro ⟨t,hrun⟩
    obtain ⟨checks,hscript,hall,_⟩ := h.only s a t hrun
    exact ⟨checks,hscript,hall⟩
  · rintro ⟨checks,hscript,hall⟩
    exact h.returns s checks a hscript hall

theorem «return» (a : α) :
    Follows gauge measure (pure a : Effect ε σ α) (pure a : Script κ α) where
  returns s checks b hscript _ := by
    obtain ⟨_,rfl⟩ := Script.pure_eq_reach.mp hscript
    exact ⟨s,rfl⟩
  only s b t hrun := by
    obtain ⟨hb,rfl⟩ := Prod.mk.inj hrun
    exact ⟨[],Script.pure_eq_reach.mpr ⟨rfl,Except.ok.inj hb⟩,trivial,rfl⟩

theorem bind {f : α → Effect ε σ β} {next : α → Script κ β} (hm : Follows gauge measure m script)
    (hf : ∀ a, Follows gauge measure (f a) (next a)) :
    Follows gauge measure (m >>= f) (script >>= next) where
  returns s checks b hscript hall := by
    obtain ⟨first,a,more,hfirst,hmore,rfl⟩ := Script.bind_eq_reach.mp hscript
    obtain ⟨hall,hrest⟩ := Gauge.all_append.mp hall
    obtain ⟨t,hrun⟩ := hm.returns s first a hfirst hall
    obtain ⟨checks,hscript,_,hafter⟩ := hm.only s a t hrun
    obtain rfl : first = checks := by
      rw [hfirst,Script.reach.injEq] at hscript
      exact hscript.1
    rw [← hafter] at hrest
    obtain ⟨u,hrun'⟩ := (hf a).returns t more b hmore hrest
    exact ⟨u,by rw [Effect.bind_ok hrun,hrun']⟩
  only s b u hrun := by
    rcases hm' : m s with ⟨e | a,t⟩
    · rw [Effect.bind_error hm'] at hrun
      cases (Prod.mk.inj hrun).1
    · rw [Effect.bind_ok hm'] at hrun
      obtain ⟨first,hfirst,hall,hafter⟩ := hm.only s a t hm'
      obtain ⟨more,hmore,hrest,hafter'⟩ := (hf a).only t b u hrun
      rw [hafter] at hrest hafter'
      exact ⟨first ++ more,Script.bind_eq_reach.mpr ⟨first,a,more,hfirst,hmore,rfl⟩,
        Gauge.all_append.mpr ⟨hall,hrest⟩,by rw [Gauge.after_append,hafter']⟩

theorem lift (r : Except ε α) :
    Follows gauge measure (Effect.lift r : Effect ε σ α) (Script.ofExcept r) where
  returns s checks a hscript _ := by
    obtain ⟨_,rfl⟩ := Script.ofExcept_eq_reach.mp hscript
    exact ⟨s,rfl⟩
  only s a t hrun := by
    obtain ⟨ha,rfl⟩ := Prod.mk.inj hrun
    exact ⟨[],Script.ofExcept_eq_reach.mpr ⟨rfl,ha⟩,trivial,rfl⟩

/-- What never returns follows the script without a value. -/
theorem raise (e : ε) : Follows gauge measure (Effect.raise e : Effect ε σ α) Script.stop where
  returns s checks a hscript _ := by cases hscript
  only s a t hrun := by cases (Prod.mk.inj hrun).1

theorem lift_mapError {ε' : Type} (r : Except ε' α) (f : ε' → ε) :
    Follows gauge measure (Effect.lift (r.mapError f) : Effect ε σ α) (Script.ofExcept r) := by
  rw [← Script.ofExcept_mapError r f]
  exact lift _

theorem raiseIf_bind {c : Prop} [Decidable c] {e : ε} {f : Unit → Effect ε σ β}
    {script : Script κ β} (hf : Follows gauge measure (f ()) script) :
    Follows gauge measure (Effect.raiseIf c e >>= f) (if c then .stop else script) := by
  by_cases hc : c
  · have hrun : (Effect.raiseIf c e >>= f) = Effect.raise e :=
      funext fun s => Effect.bind_error (Effect.raiseIf_pos hc e s)
    rw [hrun,if_pos hc]
    exact raise e
  · have hrun : (Effect.raiseIf c e >>= f) = f () :=
      funext fun s => Effect.bind_ok (Effect.raiseIf_neg hc e s)
    rw [hrun,if_neg hc]
    exact hf

/-- A step that always returns and spends nothing is not seen in the script. -/
theorem silent_bind {f : α → Effect ε σ β} {script : Script κ β} {a : α} {next : σ → σ}
    (hrun : ∀ s, m s = (.ok a,next s)) (hmeasure : ∀ s, measure (next s) = measure s)
    (hf : Follows gauge measure (f a) script) : Follows gauge measure (m >>= f) script where
  returns s checks b hscript hall := by
    rw [← hmeasure] at hall
    obtain ⟨t,ht⟩ := hf.returns (next s) checks b hscript hall
    exact ⟨t,by rw [Effect.bind_ok (hrun s),ht]⟩
  only s b t h := by
    rw [Effect.bind_ok (hrun s)] at h
    obtain ⟨checks,hscript,hall,hafter⟩ := hf.only (next s) b t h
    rw [hmeasure] at hall hafter
    exact ⟨checks,hscript,hall,hafter⟩

/-- A step that is one check. -/
theorem check {m : Effect ε σ Unit} {c : κ}
    (hpass : ∀ s, gauge.Passes (measure s) c → ∃ t, m s = (.ok (),t))
    (honly : ∀ s t, m s = (.ok (),t) →
      gauge.Passes (measure s) c ∧ measure t = gauge.spend (measure s) c) :
    Follows gauge measure m (Script.check c) where
  returns s checks a hscript hall := by
    obtain ⟨rfl,_⟩ := Script.reach.inj hscript
    exact hpass s hall.1
  only s a t hrun := by
    obtain ⟨hpasses,hafter⟩ := honly s t hrun
    exact ⟨[c],rfl,⟨hpasses,trivial⟩,hafter⟩

end Follows
end HearthAI
