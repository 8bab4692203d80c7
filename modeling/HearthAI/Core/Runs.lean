import Mathlib

/-! # Maximal runs of a list, and sorting by an order on its members -/
namespace HearthAI.Runs

section
variable {α : Type} {p : α → Bool}

/-- A nonempty block of `p` in `s` that no neighbour extends. -/
def MaximalRun (p : α → Bool) (s t : List α) : Prop :=
  t ≠ [] ∧ (∀ c ∈ t, p c = true) ∧ ∃ before after, s = before ++ (t ++ after) ∧
    (∀ c ∈ before.getLast?, p c = false) ∧ ∀ c ∈ after.head?, p c = false

variable {s t l : List α} {c : α}

theorem MaximalRun.subset (h : MaximalRun p s t) : t ⊆ s := by
  obtain ⟨_,_,before,after,rfl,_⟩ := h
  exact fun d hd => List.mem_append_right _ (List.mem_append_left _ hd)

theorem not_maximalRun_nil : ¬MaximalRun p [] t := by
  rintro ⟨hne,_,before,after,hs,_⟩
  obtain ⟨_,hrest⟩ := List.append_eq_nil_iff.mp hs.symm
  exact hne (List.append_eq_nil_iff.mp hrest).1

theorem MaximalRun.append_right (h : MaximalRun p s t) (hc : p c = false) (l : List α) :
    MaximalRun p (s ++ c :: l) t := by
  obtain ⟨hne,ht,before,after,rfl,hbefore,hafter⟩ := h
  refine ⟨hne,ht,before,after ++ c :: l,by simp,hbefore,fun d hd => ?_⟩
  cases after with
  | nil =>
    obtain rfl := Option.some.inj hd
    exact hc
  | cons e after => exact hafter d hd

theorem MaximalRun.append_left (h : MaximalRun p l t) (hc : p c = false) (s : List α) :
    MaximalRun p (s ++ c :: l) t := by
  obtain ⟨hne,ht,before,after,rfl,hbefore,hafter⟩ := h
  refine ⟨hne,ht,s ++ c :: before,after,by simp,fun d hd => ?_,hafter⟩
  rw [List.getLast?_append_cons] at hd
  cases before with
  | nil =>
    obtain rfl := Option.some.inj hd
    exact hc
  | cons e before => exact hbefore d hd

/-- An element outside the runs separates them. -/
theorem maximalRun_append_cons (hc : p c = false) :
    MaximalRun p (s ++ c :: l) t ↔ MaximalRun p s t ∨ MaximalRun p l t := by
  refine ⟨?_,fun h => h.elim (·.append_right hc l) (·.append_left hc s)⟩
  rintro ⟨hne,ht,before,after,hs,hbefore,hafter⟩
  have hout : c ∉ t := fun hmem => by
    rw [ht c hmem] at hc
    cases hc
  rcases List.append_eq_append_iff.mp hs with ⟨u,rfl,hrest⟩ | ⟨u,rfl,hrest⟩
  · -- The run starts at the separator or behind it.
    cases u with
    | nil =>
      have hhead := congrArg List.head? hrest
      rw [List.nil_append,List.head?_append_of_ne_nil _ hne] at hhead
      exact absurd (List.mem_of_head? hhead.symm) hout
    | cons d u =>
      obtain ⟨rfl,rfl⟩ := List.cons.inj hrest
      refine .inr ⟨hne,ht,u,after,rfl,fun e he => hbefore e ?_,hafter⟩
      rw [List.getLast?_append_cons]
      cases u with
      | nil => cases he
      | cons f u => exact he
  · rcases List.append_eq_append_iff.mp hrest with ⟨v,rfl,hafter'⟩ | ⟨v,rfl,hrun⟩
    · -- The run ends in front of the separator.
      refine .inl ⟨hne,ht,before,v,rfl,hbefore,fun d hd => hafter d ?_⟩
      rw [hafter',List.head?_append,hd]
      rfl
    · cases v with
      | nil => exact .inl ⟨hne,ht,before,[],by simp,hbefore,by simp⟩
      | cons d v =>
        obtain ⟨rfl,_⟩ := List.cons.inj hrun
        exact absurd (List.mem_append_right _ List.mem_cons_self) hout

/-- A list of one run. -/
theorem maximalRun_of_forall (hs : ∀ c ∈ s, p c = true) :
    MaximalRun p s t ↔ t = s ∧ s ≠ [] := by
  constructor
  · rintro ⟨hne,_,before,after,rfl,hbefore,hafter⟩
    have hempty : before = [] := by
      rw [← List.getLast?_eq_none_iff,Option.eq_none_iff_forall_ne_some]
      intro d hd
      have hp := hs d (List.mem_append_left _ (List.mem_of_getLast? hd))
      rw [hbefore d hd] at hp
      cases hp
    have hempty' : after = [] := by
      rw [← List.head?_eq_none_iff,Option.eq_none_iff_forall_ne_some]
      intro d hd
      have hp := hs d (List.mem_append_right _ (List.mem_append_right _ (List.mem_of_head? hd)))
      rw [hafter d hd] at hp
      cases hp
    rw [hempty,hempty',List.nil_append,List.append_nil]
    exact ⟨rfl,hne⟩
  · rintro ⟨rfl,hne⟩
    exact ⟨hne,hs,[],[],by simp,by simp,by simp⟩

/-- Sorting by an order that is transitive and total on the members. -/
theorem pairwise_mergeSort_of_mem {le : α → α → Bool}
    (htrans : ∀ a ∈ s, ∀ b ∈ s, ∀ c ∈ s, le a b = true → le b c = true → le a c = true)
    (htotal : ∀ a ∈ s, ∀ b ∈ s, (le a b || le b a) = true) :
    (s.mergeSort le).Pairwise (fun a b => le a b = true) := by
  have hsort : (s.attach.mergeSort (fun a b => le a.1 b.1)).map Subtype.val = s.mergeSort le := by
    refine (List.map_mergeSort (s := le) fun _ _ _ _ => rfl).trans ?_
    rw [List.attach_map_subtype_val]
  rw [← hsort,List.pairwise_map]
  refine List.pairwise_mergeSort ?_ ?_ _
  · exact fun a b c => htrans a.1 a.2 b.1 b.2 c.1 c.2
  · exact fun a b => htotal a.1 a.2 b.1 b.2

end
end HearthAI.Runs
