import HearthAI.Python.Text

/-! # Pure paths of POSIX, as pathlib has them -/
namespace HearthAI.Python

def slash : CodePoint := 47

/-- A path, by its parts. -/
structure Path where
  absolute : Bool
  parts : List Str
  deriving DecidableEq

namespace Path

/-- The parts of a string. Empty parts and single dots are dropped. -/
def split (s : Str) : List Str := (s.splitOn slash).filter (fun part => part ≠ [] ∧ part ≠ lit ".")

def ofStr (s : Str) : Path := ⟨startsWith [slash] s,split s⟩

/-- `path / s`. A string that starts with a slash takes the place of the path. -/
def join (path : Path) (s : Str) : Path :=
  if startsWith [slash] s then ofStr s else ⟨path.absolute,path.parts ++ split s⟩

/-- Where parts lead from a place below some directory. Two dots go up, but never out of
that directory. -/
def walk (place : List Str) : List Str → Option (List Str)
  | [] => some place
  | part :: rest =>
    if part = lit ".." then if place = [] then none else walk place.dropLast rest
    else walk (place ++ [part]) rest

/-- The place below the directory that a path names, if it stays below. -/
def below (root path : Path) : Option (List Str) :=
  if root.absolute = path.absolute ∧ root.parts <+: path.parts then
    walk [] (path.parts.drop root.parts.length)
  else none

/-- The path some parts below. -/
def under (root : Path) (parts : List Str) : Path := ⟨root.absolute,root.parts ++ parts⟩

/-- A name of one directory entry, and no more than that. -/
structure Plain (s : Str) : Prop where
  nonempty : s ≠ []
  slashless : slash ∉ s
  not_dot : s ≠ lit "."
  not_dots : s ≠ lit ".."

instance (s : Str) : Decidable (Plain s) :=
  decidable_of_iff (s ≠ [] ∧ slash ∉ s ∧ s ≠ lit "." ∧ s ≠ lit "..")
    ⟨fun ⟨hne,hslash,hdot,hdots⟩ => ⟨hne,hslash,hdot,hdots⟩,
      fun ⟨hne,hslash,hdot,hdots⟩ => ⟨hne,hslash,hdot,hdots⟩⟩

variable {root : Path} {s : Str}

theorem Plain.split (h : Plain s) : split s = [s] := by
  rw [Path.split,List.splitOn_eq_singleton h.slashless]
  simp [h.nonempty,h.not_dot]

theorem Plain.startsWith (h : Plain s) : startsWith [slash] s = false := by
  cases s with
  | nil => rfl
  | cons c s =>
    have hc : slash ≠ c := fun heq => h.slashless (heq ▸ List.mem_cons_self)
    show (slash == c && [].isPrefixOf s) = false
    rw [beq_eq_false_iff_ne.mpr hc,Bool.false_and]

/-- A plain name is one step down. -/
theorem join_under (h : Plain s) (root : Path) (parts : List Str) :
    (root.under parts).join s = root.under (parts ++ [s]) := by
  simp [join,h.startsWith,h.split,under]

theorem walk_plain {parts : List Str} (h : ∀ part ∈ parts, part ≠ lit "..") (place : List Str) :
    walk place parts = some (place ++ parts) := by
  induction parts generalizing place with
  | nil => rw [walk,List.append_nil]
  | cons part parts ih =>
    obtain ⟨hpart,hparts⟩ := List.forall_mem_cons.mp h
    rw [walk,if_neg hpart,ih hparts,List.append_assoc,List.singleton_append]

theorem below_under {parts : List Str} (h : ∀ part ∈ parts, Plain part) (root : Path) :
    root.below (root.under parts) = some parts := by
  have hpre : root.parts <+: (root.under parts).parts := List.prefix_append _ _
  rw [below,if_pos ⟨rfl,hpre⟩,under,List.drop_left,walk_plain fun part hpart => (h part hpart).not_dots]
  rfl

end Path
end HearthAI.Python
