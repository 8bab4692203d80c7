import HearthAI.Core.Transition

/-! # The values that a register goes through

A register is a part of the state that is empty at first, and that some events give a value.
-/
namespace HearthAI.Transition
variable {σ α β : Type*}

/-- What one event does to a register: nothing, or it opens the register with a first value, or it
replaces a value by one that may come next. -/
inductive RegisterStep (first : β → Prop) (next : β → β → Prop) :
    Option β → Option β → Option β → Prop
  | kept (value : Option β) : RegisterStep first next value none value
  | opened {b : β} (h : first b) : RegisterStep first next none (some b) (some b)
  | moved {a b : β} (h : next a b) : RegisterStep first next (some a) (some b) (some b)

/-- A sequence of values that starts with a first one and has each value after one that it may
follow. -/
structure Path (first : β → Prop) (next : β → β → Prop) (values : List β) : Prop where
  head : ∀ b ∈ values.head?, first b
  chain : values.IsChain next

section
variable {first : β → Prop} {next : β → β → Prop} {values later : List β} {a b : β}

theorem Path.nil : Path first next [] := ⟨by simp,List.isChain_nil⟩

theorem Path.single (h : first b) : Path first next [b] := by
  refine ⟨fun c hc => ?_,List.isChain_singleton b⟩
  rwa [← Option.some.inj hc]

theorem Path.snoc (h : Path first next values) (hlast : values.getLast? = some a)
    (hnext : next a b) : Path first next (values ++ [b]) := by
  refine ⟨fun c hc => h.head c ?_,h.chain.append (List.isChain_singleton b) fun c hc d hd => ?_⟩
  · cases values with
    | nil => cases hlast
    | cons _ _ => exact hc
  · obtain rfl := Option.some.inj (hlast.symm.trans hc)
    obtain rfl := Option.some.inj hd
    exact hnext

/-- Nothing comes after a value that has no next one. -/
theorem Path.eq_nil_of_final (h : Path first next (values ++ b :: later))
    (hfinal : ∀ c, ¬next b c) : later = [] := by
  cases later with
  | nil => rfl
  | cons c later =>
    obtain ⟨hnext,_⟩ := List.isChain_cons_cons.mp h.chain.right_of_append
    exact absurd hnext (hfinal c)

variable {step : σ → α → σ → Prop} {register : σ → Option β} {gives : α → Option β} {s t : σ}
  {log : List α}

/-- The values that the events of a run gave a register are a path to the value it has. -/
theorem Run.path (hempty : register s = none)
    (hstep : ∀ t event u, step t event u →
      RegisterStep first next (register t) (gives event) (register u))
    (h : Run step s log t) :
    Path first next (log.filterMap gives) ∧ (log.filterMap gives).getLast? = register t := by
  induction h with
  | nil => exact ⟨.nil,hempty.symm⟩
  | @snoc log event t u _ hlast ih =>
    obtain ⟨hpath,hvalue⟩ := ih
    have hregister := hstep t event u hlast
    rw [List.filterMap_append]
    generalize hgives : gives event = given at hregister
    generalize register t = before at hvalue hregister
    generalize register u = after at hregister
    cases hregister with
    | kept _ =>
      rw [List.filterMap_cons_none hgives,List.filterMap_nil,List.append_nil]
      exact ⟨hpath,hvalue⟩
    | @opened b hfirst =>
      rw [List.filterMap_cons_some hgives,List.filterMap_nil,List.getLast?_eq_none_iff.mp hvalue]
      exact ⟨.single hfirst,rfl⟩
    | @moved a b hnext =>
      rw [List.filterMap_cons_some hgives,List.filterMap_nil]
      exact ⟨hpath.snoc hvalue hnext,List.getLast?_concat⟩

/-- After a value that has no next one, no event gives the register a value. -/
theorem eq_none_of_final {earlier after : List α} {event other : α}
    (h : Path first next ((earlier ++ event :: after).filterMap gives))
    (hgives : gives event = some b) (hfinal : ∀ c, ¬next b c) (hother : other ∈ after) : gives other = none := by
  rw [List.filterMap_append,List.filterMap_cons_some hgives] at h
  exact List.filterMap_eq_nil_iff.mp (h.eq_nil_of_final hfinal) other hother

end
end HearthAI.Transition
