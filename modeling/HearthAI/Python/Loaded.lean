import HearthAI.Python.Indented

/-! # What `json.loads` makes

Its strings are paired, its numbers are written as they were read, its objects have every
key once and its brackets are no deeper than before, so it can all be written and read again.
-/
namespace HearthAI.Python

section
variable {python : Interpreter} {s r : Str} {n depth : ℕ} {value : Value}

theorem natOf_lt {digits : Str} (h : ∀ d ∈ digits, isDigit d = true) :
    natOf digits < 10 ^ digits.length := by
  induction digits using List.reverseRecOn with
  | nil => exact Nat.one_pos
  | append_singleton digits d ih =>
    obtain ⟨hdigits,hd⟩ := List.forall_mem_append.mp h
    have hd := hd d (List.mem_singleton_self d)
    simp only [isDigit,Bool.and_eq_true,decide_eq_true_eq] at hd
    have hlt := ih hdigits
    have hnat : natOf (digits ++ [d]) = 10 * natOf digits + (d.val - 48) := by
      rw [natOf,List.foldl_append]
      rfl
    rw [hnat,List.length_append,List.length_singleton,Nat.pow_succ]
    omega

theorem whole_intLiteral (i : Int) : (intLiteral i).whole = lit (Nat.repr i.natAbs) := by
  cases i <;> rfl

theorem Literal.natAbs_int (l : Literal) : l.int.natAbs = natOf l.whole := by
  unfold Literal.int
  split_ifs
  · exact Int.natAbs_natCast _
  · rw [Int.natAbs_neg,Int.natAbs_natCast]

/-- An integer has no more digits than its literal. -/
theorem Literal.Fits.converts {l : Literal} (h : l.Fits) (hwhole : python.Converts l.whole) :
    python.Converts (intLiteral l.int).whole := by
  have hdigits : l.whole ≠ [] ∧ ∀ d ∈ l.whole, isDigit d = true := by
    rcases h.whole with hzero | ⟨c,t,heq,_,hc,ht⟩
    · rw [hzero]
      exact ⟨by decide,List.all_eq_true.mp (by decide)⟩
    · rw [heq]
      exact ⟨List.cons_ne_nil _ _,List.forall_mem_cons.mpr ⟨hc,ht⟩⟩
  have hlength : (intLiteral l.int).whole.length ≤ l.whole.length := by
    rw [whole_intLiteral,l.natAbs_int,lit,List.length_map]
    exact Nat.repr_length _ _ (List.length_pos_iff.mpr hdigits.1) (natOf_lt hdigits.2)
  exact fun limit hlimit => hlength.trans (hwhole limit hlimit)

theorem Literal.Fits.loaded {l : Literal} (h : l.Fits) (hvalue : l.value python = .ok value) :
    Loaded python depth value := by
  unfold Literal.value at hvalue
  split_ifs at hvalue with hfloat hwhole
  · obtain rfl := Except.ok.inj hvalue
    rcases python.floats.exact l h hfloat with ⟨hinfinite,hnonzero⟩ | hwritten
    · rw [hnonzero]
      exact .infinite hinfinite
    · exact .float hwritten
  · obtain rfl := Except.ok.inj hvalue
    exact .int (h.converts hwhole)

end
end HearthAI.Python
