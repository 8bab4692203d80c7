import HearthAI.Core.Fallible

/-! # Trees of directories and files without links

A place is the list of the names on the way to it, the deepest one first.
-/
namespace HearthAI.FileTree

inductive Node (β : Type)
  | dir
  | file (content : β)
  deriving DecidableEq

structure Tree (α β : Type) where
  node : List α → Option (Node β)
  root : node [] = some .dir
  /-- What is in something is in a directory. -/
  closed : ∀ name place, (node (name :: place)).isSome = true → node place = some .dir

inductive Component (α : Type)
  | cur
  | up
  | name (name : α)
  deriving DecidableEq

inductive WalkError
  | missing
  | notDir
  | taken
  deriving DecidableEq

variable {α β : Type}

/-- Where a component leads. Above the root is the root. -/
def Component.move (place : List α) : Component α → List α
  | .cur => place
  | .up => place.tail
  | .name n => n :: place

/-- Where a path leads, whether it is there or not. -/
def lexical (place : List α) (path : List (Component α)) : List α :=
  path.foldl Component.move place

theorem lexical_append (place : List α) (path more : List (Component α)) :
    lexical place (path ++ more) = lexical (lexical place path) more := List.foldl_append

namespace Tree

def isDir (tree : Tree α β) (place : List α) : Bool :=
  match tree.node place with
  | some .dir => true
  | _ => false

def step (tree : Tree α β) (place : List α) (c : Component α) : Except WalkError (List α) :=
  if tree.isDir place then
    if (tree.node (c.move place)).isSome then .ok (c.move place) else .error .missing
  else .error .notDir

/-- Follow a path whose components are all there. -/
def walk (tree : Tree α β) (place : List α) (path : List (Component α)) :
    Except WalkError (List α) := path.foldlM tree.step place

/-- Everything that is in the one tree is in the other. -/
def Extends (tree more : Tree α β) : Prop :=
  ∀ place node, tree.node place = some node → more.node place = some node

section
variable {tree more : Tree α β} {place p : List α} {c : Component α} {path : List (Component α)}

theorem isDir_iff : tree.isDir place = true ↔ tree.node place = some .dir := by
  unfold isDir
  rcases tree.node place with _ | (_ | _) <;> simp

theorem isDir_tail (h : tree.isDir place = true) : tree.isDir place.tail = true := by
  cases place with
  | nil => exact h
  | cons name place =>
    refine isDir_iff.mpr (tree.closed name place ?_)
    rw [isDir_iff.mp h]
    rfl

theorem step_eq_ok : tree.step place c = .ok p ↔
    tree.isDir place = true ∧ (tree.node (c.move place)).isSome = true ∧ p = c.move place := by
  unfold step
  split_ifs with hdir hnode
  · simp [hdir,hnode,eq_comm]
  · simp [hnode]
  · simp [hdir]

theorem walk_append {more : List (Component α)} : tree.walk place (path ++ more) = .ok p ↔
    ∃ q, tree.walk place path = .ok q ∧ tree.walk q more = .ok p := by
  rw [walk,List.foldlM_append]
  exact bind_eq_ok

theorem walk_cons : tree.walk place (c :: path) = .ok p ↔
    ∃ q, tree.step place c = .ok q ∧ tree.walk q path = .ok p := by
  rw [walk,List.foldlM_cons]
  exact bind_eq_ok

theorem walk_eq_lexical (h : tree.walk place path = .ok p) : p = lexical place path := by
  induction path generalizing place with
  | nil => exact (Except.ok.inj h).symm
  | cons c path ih =>
    obtain ⟨q,hstep,hwalk⟩ := walk_cons.mp h
    rw [ih hwalk,(step_eq_ok.mp hstep).2.2]
    rfl

theorem step_up_isDir (h : tree.step place .up = .ok p) : tree.isDir p = true := by
  obtain ⟨hdir,_,rfl⟩ := step_eq_ok.mp h
  exact isDir_tail hdir

theorem walk_cur (h : tree.isDir place = true) (n : ℕ) :
    tree.walk place (List.replicate n .cur) = .ok place := by
  induction n with
  | zero => rfl
  | succ n ih =>
    have hnode : (tree.node place).isSome = true := by
      rw [isDir_iff.mp h]
      rfl
    exact walk_cons.mpr ⟨place,step_eq_ok.mpr ⟨h,hnode,rfl⟩,ih⟩

/-- A place that is there is where its names lead. -/
theorem walk_names (h : (tree.node place).isSome = true) :
    tree.walk [] (place.reverse.map .name) = .ok place := by
  induction place with
  | nil => rfl
  | cons name place ih =>
    have hdir := tree.closed name place h
    rw [List.reverse_cons,List.map_append]
    refine walk_append.mpr ⟨place,ih (by rw [hdir]; rfl),walk_cons.mpr ⟨name :: place,?_,rfl⟩⟩
    exact step_eq_ok.mpr ⟨isDir_iff.mpr hdir,h,rfl⟩

theorem Extends.refl (tree : Tree α β) : tree.Extends tree := fun _ _ h => h

theorem Extends.trans {last : Tree α β} (h : tree.Extends more) (h' : more.Extends last) :
    tree.Extends last := fun place node hnode => h' place node (h place node hnode)

theorem Extends.step (h : tree.Extends more) (hstep : tree.step place c = .ok p) :
    more.step place c = .ok p := by
  obtain ⟨hdir,hnode,rfl⟩ := step_eq_ok.mp hstep
  obtain ⟨node,hnode⟩ := Option.isSome_iff_exists.mp hnode
  refine step_eq_ok.mpr ⟨isDir_iff.mpr (h _ _ (isDir_iff.mp hdir)),?_,rfl⟩
  rw [h _ _ hnode]
  rfl

theorem Extends.walk (h : tree.Extends more) (hwalk : tree.walk place path = .ok p) :
    more.walk place path = .ok p := by
  induction path generalizing place with
  | nil => exact hwalk
  | cons c path ih =>
    obtain ⟨q,hstep,hrest⟩ := walk_cons.mp hwalk
    exact walk_cons.mpr ⟨q,h.step hstep,ih hrest⟩

end

section
variable [DecidableEq α]

/-- A new empty directory. -/
def mkdir (tree : Tree α β) (name : α) (place : List α) (hdir : tree.isDir place = true) :
    Tree α β where
  node other := if other = name :: place then some .dir else tree.node other
  root := by rw [if_neg (by simp),tree.root]
  closed other below h := by
    by_cases hsame : other :: below = name :: place
    · obtain ⟨_,rfl⟩ := List.cons.inj hsame
      rw [if_neg fun heq => by simpa using congrArg List.length heq]
      exact isDir_iff.mp hdir
    · rw [if_neg hsame] at h
      rw [tree.closed other below h]
      exact ite_self _

/-- Make a component that is not there. -/
def create (tree : Tree α β) (place : List α) : Component α → Except WalkError (Tree α β × List α)
  | .name n =>
    match tree.node (n :: place) with
    | none =>
      if hdir : tree.isDir place = true then .ok (tree.mkdir n place hdir,n :: place)
      else .error .notDir
    | some .dir => .ok (tree,n :: place)
    | some (.file _) => .error .taken
  | c => .ok (tree,c.move place)

/-- Make every missing component of a path, in order. -/
def createAll (tree : Tree α β) (place : List α) :
    List (Component α) → Except WalkError (Tree α β × List α)
  | [] => .ok (tree,place)
  | c :: rest => do
    let (next,below) ← tree.create place c
    next.createAll below rest

variable {tree : Tree α β} {place : List α} {c : Component α} {path : List (Component α)}
  {r : Tree α β × List α}

theorem mkdir_extends {name : α} (hdir : tree.isDir place = true)
    (hnew : tree.node (name :: place) = none) : tree.Extends (tree.mkdir name place hdir) := by
  intro other node hnode
  have hother : other ≠ name :: place := by
    rintro rfl
    rw [hnew] at hnode
    cases hnode
  exact (if_neg hother).trans hnode

theorem create_spec (hdir : tree.isDir place = true) (h : tree.create place c = .ok r) :
    tree.Extends r.1 ∧ r.1.isDir r.2 = true ∧ r.1.step place c = .ok r.2 := by
  have hsteps : ∀ {next : Tree α β}, tree.Extends next → next.isDir (c.move place) = true →
      tree.Extends next ∧ next.isDir (c.move place) = true ∧
        next.step place c = .ok (c.move place) := by
    intro next hext hnext
    refine ⟨hext,hnext,step_eq_ok.mpr ⟨isDir_iff.mpr (hext _ _ (isDir_iff.mp hdir)),?_,rfl⟩⟩
    rw [isDir_iff.mp hnext]
    rfl
  cases c with
  | cur =>
    obtain rfl := Except.ok.inj h
    exact hsteps (.refl tree) hdir
  | up =>
    obtain rfl := Except.ok.inj h
    exact hsteps (.refl tree) (isDir_tail hdir)
  | name n =>
    rw [create] at h
    split at h
    · next hnew =>
      rw [dif_pos hdir] at h
      obtain rfl := Except.ok.inj h
      exact hsteps (mkdir_extends hdir hnew) (isDir_iff.mpr (if_pos rfl))
    · next hnode =>
      obtain rfl := Except.ok.inj h
      exact hsteps (.refl tree) (isDir_iff.mpr hnode)
    · cases h

/-- What was there stays, and the path leads to a directory. -/
theorem createAll_spec (hdir : tree.isDir place = true) (h : tree.createAll place path = .ok r) :
    tree.Extends r.1 ∧ r.1.isDir r.2 = true ∧ r.1.walk place path = .ok r.2 := by
  induction path generalizing tree place with
  | nil =>
    obtain rfl := Except.ok.inj h
    exact ⟨.refl tree,hdir,rfl⟩
  | cons c path ih =>
    obtain ⟨next,hcreate,hrest⟩ := bind_eq_ok.mp h
    obtain ⟨hext,hnext,hstep⟩ := create_spec hdir hcreate
    obtain ⟨hext',hlast,hwalk⟩ := ih hnext hrest
    exact ⟨hext.trans hext',hlast,walk_cons.mpr ⟨next.2,hext'.step hstep,hwalk⟩⟩

end
end Tree
end HearthAI.FileTree
