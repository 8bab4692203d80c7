import Mathlib

/-! # Insertion-ordered dictionaries

An association list whose assignment keeps the place of an existing key and puts
a new key last.
-/
namespace HearthAI

abbrev Dict (α β : Type*) := List (α × β)

namespace Dict
variable {α β : Type*} [DecidableEq α]

def get (d : Dict α β) (key : α) : Option β := d.lookup key

def set : Dict α β → α → β → Dict α β
  | [],key,value => [(key,value)]
  | p :: d,key,value => if p.1 = key then (key,value) :: d else p :: set d key value

omit [DecidableEq α] in
@[simp] theorem get_nil [DecidableEq α] (key : α) : get ([] : Dict α β) key = none := rfl

theorem get_cons (p : α × β) (d : Dict α β) (key : α) :
    get (p :: d) key = if key = p.1 then some p.2 else get d key := by
  rw [get,List.lookup_cons]
  by_cases h : key = p.1
  · rw [if_pos h,beq_iff_eq.mpr h]
  · rw [if_neg h,beq_eq_false_iff_ne.mpr h]
    rfl

theorem get_eq_none {d : Dict α β} {key : α} : d.get key = none ↔ key ∉ d.map Prod.fst := by
  induction d with
  | nil => simp
  | cons p d ih =>
    rw [get_cons,List.map_cons,List.mem_cons,not_or,← ih]
    by_cases h : key = p.1
    · simp [h]
    · simp [h]

theorem mem_of_get {d : Dict α β} {key : α} {value : β} (h : d.get key = some value) :
    (key,value) ∈ d := by
  induction d with
  | nil => cases h
  | cons p d ih =>
    rw [get_cons] at h
    split_ifs at h with hkey
    · rw [← Option.some.inj h,hkey]
      exact List.mem_cons_self
    · exact List.mem_cons_of_mem _ (ih h)

theorem get_of_mem {d : Dict α β} (hd : (d.map Prod.fst).Nodup) {key : α} {value : β}
    (h : (key,value) ∈ d) : d.get key = some value := by
  induction d with
  | nil => cases h
  | cons p d ih =>
    obtain ⟨hp,hd⟩ := List.nodup_cons.mp hd
    rw [get_cons]
    rcases List.mem_cons.mp h with rfl | h
    · exact if_pos rfl
    · have hne : key ≠ p.1 := by
        rintro rfl
        exact hp (List.mem_map.mpr ⟨_,h,rfl⟩)
      rw [if_neg hne,ih hd h]

theorem set_new {d : Dict α β} {key : α} (h : key ∉ d.map Prod.fst) (value : β) :
    d.set key value = d ++ [(key,value)] := by
  induction d with
  | nil => rfl
  | cons p d ih =>
    rw [List.map_cons,List.mem_cons,not_or] at h
    rw [set,if_neg (Ne.symm h.1),ih h.2,List.cons_append]

theorem get_append (d e : Dict α β) (key : α) : get (d ++ e) key = (d.get key).or (get e key) := by
  induction d with
  | nil => simp
  | cons p d ih =>
    rw [List.cons_append,get_cons,get_cons,ih]
    split_ifs <;> simp

theorem get_last {d : Dict α β} {key : α} (h : key ∉ d.map Prod.fst) (value : β) :
    get (d ++ [(key,value)]) key = some value := by
  rw [get_append,get_eq_none.mpr h]
  simp [get]

theorem set_last {d : Dict α β} {key : α} (h : key ∉ d.map Prod.fst) (old value : β) :
    set (d ++ [(key,old)]) key value = d ++ [(key,value)] := by
  induction d with
  | nil => exact if_pos rfl
  | cons p d ih =>
    rw [List.map_cons,List.mem_cons,not_or] at h
    rw [List.cons_append,set,if_neg (Ne.symm h.1),ih h.2,List.cons_append]

theorem get_set (d : Dict α β) (key key' : α) (value : β) :
    (d.set key value).get key' = if key' = key then some value else d.get key' := by
  induction d with
  | nil => rw [set,get_cons]
  | cons p d ih =>
    rw [set]
    by_cases hp : p.1 = key
    · rw [if_pos hp,get_cons,get_cons,hp]
      split_ifs <;> rfl
    · rw [if_neg hp,get_cons,get_cons,ih]
      by_cases hkey : key' = p.1
      · rw [if_pos hkey,if_pos hkey,if_neg (by rw [hkey]; exact hp)]
      · rw [if_neg hkey,if_neg hkey]

@[simp] theorem get_set_self (d : Dict α β) (key : α) (value : β) :
    (d.set key value).get key = some value := by
  rw [get_set,if_pos rfl]

theorem get_set_of_ne (d : Dict α β) {key key' : α} (h : key' ≠ key) (value : β) :
    (d.set key value).get key' = d.get key' := by
  rw [get_set,if_neg h]

theorem set_set (d : Dict α β) (key : α) (value value' : β) :
    (d.set key value).set key value' = d.set key value' := by
  induction d with
  | nil => exact if_pos rfl
  | cons p d ih =>
    rw [set,set]
    by_cases hp : p.1 = key
    · rw [if_pos hp,if_pos hp]
      exact if_pos rfl
    · rw [if_neg hp,if_neg hp,set,if_neg hp,ih]

/-- Assigning what is there already changes nothing. -/
theorem set_of_get {d : Dict α β} {key : α} {value : β} (h : d.get key = some value) :
    d.set key value = d := by
  induction d with
  | nil => cases h
  | cons p d ih =>
    rw [get_cons] at h
    rw [set]
    by_cases hp : p.1 = key
    · rw [if_pos hp.symm] at h
      rw [if_pos hp,← Option.some.inj h,← hp]
    · rw [if_neg (Ne.symm hp)] at h
      rw [if_neg hp,ih h]

theorem keys_set_of_mem {d : Dict α β} {key : α} (h : key ∈ d.map Prod.fst) (value : β) :
    (d.set key value).map Prod.fst = d.map Prod.fst := by
  induction d with
  | nil => cases h
  | cons p d ih =>
    rw [set]
    by_cases hp : p.1 = key
    · rw [if_pos hp,List.map_cons,List.map_cons,hp]
    · rw [List.map_cons,List.mem_cons] at h
      rw [if_neg hp,List.map_cons,List.map_cons,ih (h.resolve_left (Ne.symm hp))]

/-- Assignment keeps the keys apart. -/
theorem nodup_set {d : Dict α β} (h : (d.map Prod.fst).Nodup) (key : α) (value : β) :
    ((d.set key value).map Prod.fst).Nodup := by
  by_cases hkey : key ∈ d.map Prod.fst
  · rwa [keys_set_of_mem hkey]
  · rw [set_new hkey,List.map_append]
    exact List.nodup_append.mpr ⟨h,by simp,by simpa using fun a ha (hk : a = key) => hkey (hk ▸ ha)⟩

theorem mem_set {d : Dict α β} {key : α} {value : β} {p : α × β} (h : p ∈ d.set key value) :
    p = (key,value) ∨ p ∈ d := by
  induction d with
  | nil => exact .inl (List.mem_singleton.mp h)
  | cons q d ih =>
    rw [set] at h
    split_ifs at h with hq
    · rcases List.mem_cons.mp h with rfl | h
      · exact .inl rfl
      · exact .inr (List.mem_cons_of_mem _ h)
    · rcases List.mem_cons.mp h with rfl | h
      · exact .inr List.mem_cons_self
      · exact (ih h).imp_right (List.mem_cons_of_mem _)

/-- A map over the values commutes with assignment. -/
theorem map_set {γ : Type*} (f : β → γ) (d : Dict α β) (key : α) (value : β) :
    (d.set key value).map (fun p => (p.1,f p.2)) =
      set (d.map (fun p => (p.1,f p.2))) key (f value) := by
  induction d with
  | nil => rfl
  | cons p d ih =>
    rw [set,List.map_cons,set]
    by_cases hp : p.1 = key
    · rw [if_pos hp,if_pos hp,List.map_cons]
    · rw [if_neg hp,if_neg hp,List.map_cons,ih]

/-- The dictionary that a sequence of assignments makes. -/
def ofPairs (pairs : List (α × β)) : Dict α β := pairs.foldl (fun d p => d.set p.1 p.2) []

@[simp] theorem ofPairs_nil : (ofPairs [] : Dict α β) = [] := rfl

@[simp] theorem ofPairs_snoc (pairs : List (α × β)) (p : α × β) :
    ofPairs (pairs ++ [p]) = (ofPairs pairs).set p.1 p.2 := by
  rw [ofPairs,List.foldl_append]
  rfl

/-- Keep what is there, and put a new key last. -/
def setDefault (d : Dict α β) (key : α) (value : β) : Dict α β :=
  match d.get key with
  | some _ => d
  | none => d ++ [(key,value)]

theorem setDefault_of_get {d : Dict α β} {key : α} {old : β} (h : d.get key = some old)
    (value : β) : d.setDefault key value = d := by
  rw [setDefault,h]

theorem setDefault_new {d : Dict α β} {key : α} (h : d.get key = none) (value : β) :
    d.setDefault key value = d ++ [(key,value)] := by
  rw [setDefault,h]

/-- The first value given for each key. -/
def firsts (pairs : List (α × β)) : Dict α β := pairs.foldl (fun d p => d.setDefault p.1 p.2) []

@[simp] theorem firsts_nil : (firsts [] : Dict α β) = [] := rfl

@[simp] theorem firsts_snoc (pairs : List (α × β)) (p : α × β) :
    firsts (pairs ++ [p]) = (firsts pairs).setDefault p.1 p.2 := by
  rw [firsts,List.foldl_append]
  rfl

theorem nodup_firsts (pairs : List (α × β)) : ((firsts pairs).map Prod.fst).Nodup := by
  induction pairs using List.reverseRecOn with
  | nil => simp
  | append_singleton pairs p ih =>
    rw [firsts_snoc]
    cases h : (firsts pairs).get p.1 with
    | some old => rwa [setDefault_of_get h]
    | none =>
      rw [setDefault_new h,← set_new (get_eq_none.mp h)]
      exact nodup_set ih _ _

/-- Later values never disturb earlier ones. -/
theorem firsts_isPrefix (pairs more : List (α × β)) : firsts pairs <+: firsts (pairs ++ more) := by
  induction more using List.reverseRecOn with
  | nil => simp
  | append_singleton more p ih =>
    rw [← List.append_assoc,firsts_snoc]
    refine ih.trans ?_
    cases h : (firsts (pairs ++ more)).get p.1 with
    | some old => simp [setDefault_of_get h]
    | none =>
      rw [setDefault_new h]
      exact List.prefix_append _ _

end Dict
end HearthAI
