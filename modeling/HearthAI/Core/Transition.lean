import Mathlib

/-! # Runs of transition systems and inductive invariants -/
namespace HearthAI.Transition
variable {σ α : Type*}

section
variable {start : σ → Prop} {step : σ → σ → Prop}

/-- The states that a run from a start state can be in. -/
inductive Reachable (start : σ → Prop) (step : σ → σ → Prop) : σ → Prop
  | start {s : σ} (h : start s) : Reachable start step s
  | step {s t : σ} (hs : Reachable start step s) (h : step s t) : Reachable start step t

/-- What holds at the start and survives every step holds of every reachable state. -/
theorem Reachable.invariant {I : σ → Prop} (hstart : ∀ s, start s → I s)
    (hstep : ∀ s t, I s → step s t → I t) {s : σ} (h : Reachable start step s) : I s := by
  induction h with
  | start h => exact hstart _ h
  | step _ h ih => exact hstep _ _ ih h

end

section
variable {step step' : σ → α → σ → Prop} {s t u : σ} {log log' : List α}

/-- A run with the log of its events, the last one at the end. -/
inductive Run (step : σ → α → σ → Prop) (s : σ) : List α → σ → Prop
  | nil : Run step s [] s
  | snoc {log : List α} {event : α} {t u : σ} (h : Run step s log t) (hstep : step t event u) :
      Run step s (log ++ [event]) u

theorem Run.single {event : α} (h : step s event t) : Run step s [event] t := Run.nil.snoc h

theorem Run.eq_of_nil (h : Run step s [] t) : t = s := by
  generalize hlog : ([] : List α) = log at h
  cases h with
  | nil => rfl
  | snoc _ _ => simp at hlog

theorem Run.of_single {event : α} (h : Run step s [event] t) : step s event t := by
  generalize hlog : [event] = log at h
  cases h with
  | nil => cases hlog
  | @snoc log last t u h hstep =>
    obtain ⟨rfl,hlast⟩ := List.append_inj' (show [] ++ [event] = log ++ [last] from hlog) rfl
    obtain rfl : event = last := by simpa using hlast
    obtain rfl := h.eq_of_nil
    exact hstep

/-- An invariant may speak about the log as well as about the state. -/
theorem Run.invariant {I : List α → σ → Prop} (hnil : I [] s)
    (hstep : ∀ log t event u, Run step s log t → I log t → step t event u → I (log ++ [event]) u)
    (h : Run step s log t) : I log t := by
  induction h with
  | nil => exact hnil
  | snoc h hlast ih => exact hstep _ _ _ _ h ih hlast

theorem Run.append (h : Run step s log t) (h' : Run step t log' u) :
    Run step s (log ++ log') u := by
  induction h' with
  | nil => rwa [List.append_nil]
  | snoc _ hlast ih =>
    rw [← List.append_assoc]
    exact ih.snoc hlast

/-- A run of a deterministic system is determined by its events. -/
theorem Run.unique (hstep : ∀ t event u u', step t event u → step t event u' → u = u')
    (h : Run step s log t) (h' : Run step s log u) : t = u := by
  induction h generalizing u with
  | nil => exact h'.eq_of_nil.symm
  | @snoc log event mid t h hlast ih =>
    generalize hlog : log ++ [event] = log' at h'
    cases h' with
    | nil => simp at hlog
    | @snoc log' event' mid' u h' hlast' =>
      obtain ⟨rfl,hevent⟩ := List.append_inj' hlog rfl
      obtain rfl : event = event' := by simpa using hevent
      obtain rfl := ih h'
      exact hstep _ _ _ _ hlast hlast'

theorem Run.mono (h : Run step s log t) (hstep : ∀ t event u, step t event u → step' t event u) :
    Run step' s log t := by
  induction h with
  | nil => exact .nil
  | snoc _ hlast ih => exact ih.snoc (hstep _ _ _ hlast)

theorem Run.congr (hstep : ∀ t event u, step t event u ↔ step' t event u) :
    Run step s log t ↔ Run step' s log t :=
  ⟨fun h => h.mono fun t event u => (hstep t event u).mp,
    fun h => h.mono fun t event u => (hstep t event u).mpr⟩

/-- Events that change nothing can be left out of a run. -/
theorem Run.filter {p : α → Bool} (hidle : ∀ t event u, step t event u → p event = false → u = t)
    (h : Run step s log t) : Run step s (log.filter p) t := by
  induction h with
  | nil => exact .nil
  | @snoc log event t u _ hlast ih =>
    rw [List.filter_append]
    cases hp : p event with
    | true =>
      rw [List.filter_singleton,hp]
      exact ih.snoc hlast
    | false =>
      rw [List.filter_singleton,hp,hidle t event u hlast hp,cond_false,List.append_nil]
      exact ih

/-- A run is cut at any point of its log. -/
theorem Run.split (h : Run step s log t) {earlier later : List α} (hlog : log = earlier ++ later) :
    ∃ u, Run step s earlier u ∧ Run step u later t := by
  induction h generalizing later with
  | nil =>
    obtain ⟨rfl,rfl⟩ := List.append_eq_nil_iff.mp hlog.symm
    exact ⟨_,.nil,.nil⟩
  | @snoc log event t u h hlast ih =>
    rcases List.eq_nil_or_concat later with rfl | ⟨later,last,rfl⟩
    · rw [List.append_nil] at hlog
      exact ⟨u,hlog ▸ h.snoc hlast,.nil⟩
    · rw [List.concat_eq_append] at hlog ⊢
      rw [← List.append_assoc] at hlog
      obtain ⟨rfl,hevent⟩ := List.append_inj' hlog rfl
      obtain rfl : event = last := by simpa using hevent
      obtain ⟨mid,hearlier,hlater⟩ := ih rfl
      exact ⟨mid,hearlier,hlater.snoc hlast⟩

/-- Every event is as `P` says, given what was logged before it. -/
def EachEvent (P : List α → α → Prop) (log : List α) : Prop :=
  ∀ earlier event later, log = earlier ++ event :: later → P earlier event

theorem EachEvent.nil {P : List α → α → Prop} : EachEvent P [] := by
  intro earlier event later h
  simp at h

theorem EachEvent.snoc {P : List α → α → Prop} {event : α} (h : EachEvent P log)
    (hlast : P log event) : EachEvent P (log ++ [event]) := by
  intro earlier event' later hlog
  rcases List.eq_nil_or_concat later with rfl | ⟨later,last,rfl⟩
  · obtain ⟨rfl,hevent⟩ := List.append_inj' hlog rfl
    obtain rfl : event = event' := by simpa using hevent
    exact hlast
  · rw [List.concat_eq_append,← List.cons_append,← List.append_assoc] at hlog
    exact h earlier event' later (List.append_inj' hlog rfl).1

theorem eachEvent_snoc {P : List α → α → Prop} {event : α} :
    EachEvent P (log ++ [event]) ↔ EachEvent P log ∧ P log event := by
  constructor
  · intro h
    refine ⟨fun earlier event' later hlog => h earlier event' (later ++ [event]) ?_,h log event [] rfl⟩
    rw [hlog,List.append_assoc,List.cons_append]
  · rintro ⟨h,hlast⟩
    exact h.snoc hlast

/-- Some event is as `P` says, given what was logged before it. -/
def SomeEvent (P : List α → α → Prop) (log : List α) : Prop :=
  ∃ earlier event later, log = earlier ++ event :: later ∧ P earlier event

theorem not_someEvent {P : List α → α → Prop} :
    ¬SomeEvent P log ↔ EachEvent (fun earlier event => ¬P earlier event) log := by
  constructor
  · intro h earlier event later hlog hevent
    exact h ⟨earlier,event,later,hlog,hevent⟩
  · rintro h ⟨earlier,event,later,hlog,hevent⟩
    exact h earlier event later hlog hevent

theorem someEvent_snoc {P : List α → α → Prop} {event : α} :
    SomeEvent P (log ++ [event]) ↔ SomeEvent P log ∨ P log event := by
  rw [← not_iff_not,not_someEvent,eachEvent_snoc,← not_someEvent,not_or]

end
end HearthAI.Transition
