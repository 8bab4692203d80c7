import HearthAI.Core.Effect

/-! # What a computation changes, and computations that keep a log

The first relation speaks about every run of a computation, whichever exit it takes.
The second compares a computation with one on a state that has a log beside it.
-/
namespace HearthAI.Effect
variable {ε σ ω α β : Type}

/-- Every run leads from its start to a related state. -/
def Within (R : σ → σ → Prop) (m : Effect ε σ α) : Prop := ∀ s, R s (m s).2

section
variable {R : σ → σ → Prop}

theorem Within.pure (hrefl : ∀ s, R s s) (a : α) : Within R (pure a : Effect ε σ α) := hrefl

theorem Within.raise (hrefl : ∀ s, R s s) (e : ε) : Within R (raise e : Effect ε σ α) := hrefl

theorem Within.lift (hrefl : ∀ s, R s s) (r : Except ε α) : Within R (lift r : Effect ε σ α) := hrefl

theorem Within.raiseIf (hrefl : ∀ s, R s s) (c : Prop) [Decidable c] (e : ε) :
    Within R (raiseIf c e : Effect ε σ Unit) := by
  intro s
  unfold Effect.raiseIf
  split_ifs
  · exact hrefl s
  · exact hrefl s

/-- The rest is needed only for what the first part can return. -/
theorem Within.bind (htrans : ∀ s t u, R s t → R t u → R s u) {m : Effect ε σ α}
    {f : α → Effect ε σ β} (hm : Within R m)
    (hf : ∀ s a t, m s = (.ok a,t) → Within R (f a)) : Within R (m >>= f) := by
  intro s
  have hfirst := hm s
  rcases hrun : m s with ⟨e | a,t⟩
  · rw [bind_error hrun]
    rwa [hrun] at hfirst
  · rw [bind_ok hrun]
    rw [hrun] at hfirst
    exact htrans s t _ hfirst (hf s a t hrun t)

/-- A computation that looks at the state before it does anything. -/
theorem Within.read {f : σ → Effect ε σ β} (hf : ∀ s, Within R (f s)) : Within R (read >>= f) :=
  fun s => hf s s

end

/-- A computation beside a log that it does not write. -/
def quiet (m : Effect ε σ α) : Effect ε (σ × List ω) α := fun s =>
  ((m s.1).1,(m s.1).2,s.2)

/-- Note something in the log. -/
def emit (w : ω) : Effect ε (σ × List ω) Unit := fun s => (.ok (),s.1,s.2 ++ [w])

/-- The first computation does what the second does, and notes only such things. -/
def Logs (p : ω → Prop) (m : Effect ε (σ × List ω) α) (n : Effect ε σ α) : Prop :=
  ∀ s log, ∃ more, (∀ w ∈ more, p w) ∧ m (s,log) = ((n s).1,(n s).2,log ++ more)

section
variable {p : ω → Prop}

theorem Logs.quiet (m : Effect ε σ α) : Logs p (quiet m) m := fun s log =>
  ⟨[],by simp,by rw [List.append_nil]; rfl⟩

theorem Logs.pure (a : α) : Logs p (pure a) (pure a : Effect ε σ α) := Logs.quiet (Pure.pure a)

theorem Logs.lift (r : Except ε α) : Logs p (lift r) (lift r : Effect ε σ α) :=
  Logs.quiet (Effect.lift r)

theorem Logs.raiseIf (c : Prop) [Decidable c] (e : ε) :
    Logs p (raiseIf c e) (raiseIf c e : Effect ε σ Unit) := by
  unfold Effect.raiseIf
  split_ifs
  · exact Logs.quiet (Effect.raise e)
  · exact Logs.pure ()

/-- The rest is compared only on what the first part can return. -/
theorem Logs.bind {m : Effect ε (σ × List ω) α} {n : Effect ε σ α}
    {f : α → Effect ε (σ × List ω) β} {g : α → Effect ε σ β} (hm : Logs p m n)
    (hf : ∀ s a t, n s = (.ok a,t) → Logs p (f a) (g a)) : Logs p (m >>= f) (n >>= g) := by
  intro s log
  obtain ⟨first,hfirst,hrun⟩ := hm s log
  rcases hn : n s with ⟨e | a,t⟩
  · rw [hn] at hrun
    exact ⟨first,hfirst,by rw [bind_error hrun,bind_error hn]⟩
  · rw [hn] at hrun
    obtain ⟨more,hmore,hrest⟩ := hf s a t hn t (log ++ first)
    refine ⟨first ++ more,List.forall_mem_append.mpr ⟨hfirst,hmore⟩,?_⟩
    rw [bind_ok hrun,bind_ok hn,hrest,List.append_assoc]

theorem Logs.emit {w : ω} (hw : p w) {m : Effect ε (σ × List ω) α} {n : Effect ε σ α}
    (hm : Logs p m n) : Logs p (do emit w; m) n := by
  intro s log
  obtain ⟨more,hmore,hrun⟩ := hm s (log ++ [w])
  refine ⟨w :: more,List.forall_mem_cons.mpr ⟨hw,hmore⟩,?_⟩
  rw [bind_ok (show Effect.emit w (s,log) = (.ok (),s,log ++ [w]) from rfl),hrun,List.append_assoc,
    List.singleton_append]

theorem Logs.mono {q : ω → Prop} {m : Effect ε (σ × List ω) α} {n : Effect ε σ α}
    (hm : Logs p m n) (h : ∀ w, p w → q w) : Logs q m n := by
  intro s log
  obtain ⟨more,hmore,hrun⟩ := hm s log
  exact ⟨more,fun w hw => h w (hmore w hw),hrun⟩

end
end HearthAI.Effect
