import HearthAI.Contracts.Handoff
import HearthAI.Core.FileTree

/-! # Where the handoff key may live

The key is compared with the handoff directory before that directory is created. Its path is
resolved as far as it exists; a path that cannot be cut back to an existing one is compared
as it is written.
-/
namespace HearthAI.Contracts
open Text FileTree

variable {Name : Type}

/-- An absolute path. A single dot also stands for a repeated or a trailing slash. -/
abbrev AbsolutePath (Name : Type) := List (Component Name)

abbrev Disk (Name : Type) := Tree Name Bytes

namespace AbsolutePath

def isCur : Component Name → Bool
  | .cur => true
  | _ => false

def isUp : Component Name → Bool
  | .up => true
  | _ => false

/-- `path.components()`, without the root. -/
def components (path : AbsolutePath Name) : AbsolutePath Name := path.filter (!isCur ·)

/-- The path without dots at its end. -/
def trimRight (path : AbsolutePath Name) : AbsolutePath Name := path.rdropWhile isCur

/-- `path.file_name()`. -/
def fileName (path : AbsolutePath Name) : Option Name :=
  match (trimRight path).getLast? with
  | some (.name n) => some n
  | _ => none

/-- `path.parent()`. -/
def parent (path : AbsolutePath Name) : Option (AbsolutePath Name) :=
  if trimRight path = [] then none else some (trimRight (trimRight path).dropLast)

/-- `path.starts_with(base)`. -/
def startsWith [DecidableEq Name] (path base : AbsolutePath Name) : Bool :=
  (components base).isPrefixOf (components path)

/-- The path of a place. -/
def ofPlace (place : List Name) : AbsolutePath Name := place.reverse.map .name

/-- The part of a path up to its last `..`. -/
def climbs (path : AbsolutePath Name) : AbsolutePath Name := path.rdropWhile (!isUp ·)

end AbsolutePath
open AbsolutePath

def ioError : WalkError → IoError
  | .missing => .notFound
  | .notDir => ⟨.other,"Not a directory (os error 20)"⟩
  | .taken => ⟨.other,"File exists (os error 17)"⟩

/-- `path.canonicalize()`. -/
def canonicalize (tree : Disk Name) (path : AbsolutePath Name) : Except IoError (List Name) :=
  (tree.walk [] path).mapError ioError

/-- `fs::create_dir_all`. -/
def createDirAll [DecidableEq Name] (tree : Disk Name) (path : AbsolutePath Name) :
    Except IoError (Disk Name) := do
  let (after,_) ← (tree.createAll [] path).mapError ioError
  return after

/-- `fs::read`. -/
def readPath (tree : Disk Name) (path : AbsolutePath Name) : Except IoError Bytes := do
  let place ← canonicalize tree path
  match tree.node place with
  | some (.file content) =>
    if content.length < 2 ^ 63 then .ok content else .error ⟨.other,"out of memory"⟩
  | some .dir => .error ⟨.other,"Is a directory (os error 21)"⟩
  | none => .error .notFound

/-- Some rounds of the loop of `resolved`. -/
def resolveLoop (tree : Disk Name) (path : AbsolutePath Name) :
    ℕ → AbsolutePath Name → List Name → Option (AbsolutePath Name)
  | 0, _, _ => none
  | rounds + 1, candidate, remainder =>
    match canonicalize tree candidate with
    | .ok existing => some (ofPlace existing ++ remainder.map .name)
    | .error _ =>
      match fileName candidate, parent candidate with
      | some name, some up => resolveLoop tree path rounds up (name :: remainder)
      | _, _ => some path

/-- Every round takes a component away. -/
def resolved (tree : Disk Name) (path : AbsolutePath Name) : AbsolutePath Name :=
  (resolveLoop tree path (path.length + 1) path []).getD path

def HandoffKey.unreadable (error : IoError) : ContractError :=
  ⟨s!"handoff key is unreadable: {error.text}"⟩

def HandoffKey.load (tree : Disk Name) (path : AbsolutePath Name) : Except ContractError HandoffKey := do
  let material ← (readPath tree path).mapError unreadable
  fromBytes material

def HandoffKey.loadFor [DecidableEq Name] (tree : Disk Name) (path directory : AbsolutePath Name) :
    Except ContractError HandoffKey := do
  let place ← (canonicalize tree path).mapError unreadable
  if startsWith (ofPlace place) (resolved tree directory) then
    .error ⟨"handoff key must not live inside the handoff directory; give it its own path or mount"⟩
  else load tree (ofPlace place)

section
variable {path init : AbsolutePath Name} {c : Component Name} {place : List Name}

theorem rdropWhile_append_of_forall {α : Type} {p : α → Bool} {l m : List α}
    (h : ∀ a ∈ m, p a = true) : (l ++ m).rdropWhile p = l.rdropWhile p := by
  rw [List.rdropWhile,List.reverse_append,
    List.dropWhile_append_of_pos fun a ha => h a (List.mem_reverse.mp ha),List.rdropWhile]

theorem isCur_eq_true : isCur c = true ↔ c = .cur := by cases c <;> simp [isCur]

/-- A path is its trimmed part and some dots. -/
theorem exists_trimRight (path : AbsolutePath Name) :
    ∃ k, path = trimRight path ++ List.replicate k .cur := by
  have hcurs : ∀ c ∈ path.rtakeWhile isCur, c = .cur := fun c hc =>
    isCur_eq_true.mp (List.mem_rtakeWhile_imp hc)
  refine ⟨(path.rtakeWhile isCur).length,?_⟩
  rw [← List.eq_replicate_of_mem hcurs]
  exact (List.rdropWhile_append_rtakeWhile ..).symm

theorem trimRight_last (h : trimRight path = init ++ [c]) : isCur c = false := by
  have hne : trimRight path ≠ [] := by simp [h]
  have hlast := List.rdropWhile_last_not isCur path hne
  have hc : (trimRight path).getLast hne = c := by simp [h]
  rw [← hc]
  exact Bool.eq_false_of_not_eq_true hlast

theorem lexical_curs (place : List Name) (k : ℕ) :
    lexical place (List.replicate k .cur) = place := by
  induction k with
  | zero => rfl
  | succ k ih => exact ih

theorem lexical_trimRight (place : List Name) (path : AbsolutePath Name) :
    lexical place (trimRight path) = lexical place path := by
  obtain ⟨k,hpath⟩ := exists_trimRight path
  rw [hpath,lexical_append,lexical_curs,← hpath]

theorem climbs_trimRight (path : AbsolutePath Name) : climbs (trimRight path) = climbs path := by
  obtain ⟨k,hpath⟩ := exists_trimRight path
  conv_rhs => rw [hpath]
  refine (rdropWhile_append_of_forall fun c hc => ?_).symm
  rw [List.eq_of_mem_replicate hc]
  rfl

theorem climbs_append_name (init : AbsolutePath Name) (n : Name) :
    climbs (init ++ [.name n]) = climbs init := List.rdropWhile_concat_pos _ _ _ rfl

theorem climbs_append_up (init : AbsolutePath Name) : climbs (init ++ [.up]) = init ++ [.up] :=
  List.rdropWhile_concat_neg _ _ _ (by simp [isUp])

/-- The trimmed part is where the name and the parent of a path are read. -/
theorem fileName_append_name {n : Name} (h : trimRight path = init ++ [.name n]) :
    fileName path = some n ∧ parent path = some (trimRight init) := by
  constructor
  · simp [fileName,h]
  · rw [parent,h,if_neg (by simp),List.dropLast_concat]

theorem length_trimRight_le (path : AbsolutePath Name) : (trimRight path).length ≤ path.length :=
  (List.rdropWhile_prefix _ _).length_le

end

section
variable {tree more : Disk Name} {path directory candidate : AbsolutePath Name}
  {place : List Name}

theorem canonicalize_eq_ok : canonicalize tree path = .ok place ↔ tree.walk [] path = .ok place :=
  mapError_eq_ok

theorem canonicalize_trimRight (h : canonicalize tree (trimRight path) = .ok place)
    (hdir : tree.isDir place = true) : canonicalize tree path = .ok place := by
  obtain ⟨k,hpath⟩ := exists_trimRight path
  rw [canonicalize_eq_ok,hpath,Tree.walk_append]
  exact ⟨place,canonicalize_eq_ok.mp h,Tree.walk_cur hdir k⟩

/-- The path is there up to its last `..`. -/
def Anchored (tree : Disk Name) (path : AbsolutePath Name) : Prop :=
  ∃ place, canonicalize tree (climbs path) = .ok place

theorem canonicalize_anchored (h : canonicalize tree path = .ok place) : Anchored tree path := by
  obtain ⟨rest,hrest⟩ := List.rdropWhile_prefix (fun c : Component Name => !isUp c) path
  rw [canonicalize_eq_ok,← hrest] at h
  obtain ⟨below,hwalk,_⟩ := Tree.walk_append.mp h
  exact ⟨below,canonicalize_eq_ok.mpr hwalk⟩

theorem isDir_root (tree : Disk Name) : tree.isDir [] = true := Tree.isDir_iff.mpr tree.root

/-- A candidate that has no name to take away is there, or ends in dots that are not. -/
theorem trimRight_of_error {e : IoError} (h : canonicalize tree candidate = .error e) :
    ∃ init c, trimRight candidate = init ++ [c] ∧ (c = .up → ¬Anchored tree candidate) := by
  rcases List.eq_nil_or_concat (trimRight candidate) with hnil | ⟨init,c,hconcat⟩
  · have hroot : canonicalize tree (trimRight candidate) = .ok [] := by
      rw [hnil]
      rfl
    rw [canonicalize_trimRight hroot (isDir_root tree)] at h
    cases h
  · refine ⟨init,c,by simpa using hconcat,?_⟩
    rintro rfl ⟨place,hplace⟩
    rw [List.concat_eq_append] at hconcat
    rw [← climbs_trimRight,hconcat,climbs_append_up,← hconcat] at hplace
    have hdir : tree.isDir place = true := by
      rw [hconcat,canonicalize_eq_ok] at hplace
      obtain ⟨_,_,hlast⟩ := Tree.walk_append.mp hplace
      obtain ⟨_,hstep,hnil⟩ := Tree.walk_cons.mp hlast
      obtain rfl := Except.ok.inj hnil
      exact Tree.step_up_isDir hstep
    rw [canonicalize_trimRight hplace hdir] at h
    cases h

/-- The loop ends, and finds where the path leads unless the path climbs from what is not
there. -/
theorem resolveLoop_spec (path : AbsolutePath Name) {rounds : ℕ} (remainder : List Name)
    (h : candidate.length < rounds) : ∃ result,
      resolveLoop tree path rounds candidate remainder = some result ∧
      (Anchored tree candidate →
        result = ofPlace (lexical [] candidate) ++ remainder.map .name) ∧
      (¬Anchored tree candidate → result = path) := by
  induction rounds generalizing candidate remainder with
  | zero => cases h
  | succ rounds ih =>
    cases hcandidate : canonicalize tree candidate with
    | ok existing =>
      have hexisting := Tree.walk_eq_lexical (canonicalize_eq_ok.mp hcandidate)
      refine ⟨_,by rw [resolveLoop,hcandidate],fun _ => by rw [hexisting],fun hlost => ?_⟩
      exact absurd (canonicalize_anchored hcandidate) hlost
    | error e =>
      obtain ⟨init,c,htrim,hup⟩ := trimRight_of_error hcandidate
      cases c with
      | cur => cases trimRight_last htrim
      | up =>
        have hname : fileName candidate = none := by simp [fileName,htrim]
        refine ⟨path,by rw [resolveLoop,hcandidate,hname],fun hanchored => ?_,fun _ => rfl⟩
        exact absurd hanchored (hup rfl)
      | name n =>
        obtain ⟨hname,hparent⟩ := fileName_append_name htrim
        have hlength : (trimRight init).length < rounds := by
          have hcut := length_trimRight_le candidate
          have hinit := length_trimRight_le init
          rw [htrim,List.length_append,List.length_singleton] at hcut
          omega
        obtain ⟨result,hresult,hfound,hlost⟩ := ih (n :: remainder) hlength
        have hanchored : Anchored tree candidate ↔ Anchored tree (trimRight init) := by
          rw [Anchored,Anchored,← climbs_trimRight,htrim,climbs_append_name,climbs_trimRight]
        have hlexical : lexical [] candidate = n :: lexical [] (trimRight init) := by
          rw [← lexical_trimRight,htrim,lexical_append,lexical_trimRight]
          rfl
        refine ⟨result,by rw [resolveLoop,hcandidate,hname,hparent,← hresult],?_,?_⟩
        · intro h
          rw [hfound (hanchored.mp h),hlexical]
          simp [ofPlace]
        · exact fun h => hlost fun h' => h (hanchored.mpr h')

/-! Comparing with what was resolved. -/

theorem components_ofPlace (place : List Name) : components (ofPlace place) = ofPlace place := by
  refine List.filter_eq_self.mpr fun c hc => ?_
  obtain ⟨n,_,rfl⟩ := List.mem_map.mp hc
  rfl

theorem resolved_of_anchored (h : Anchored tree directory) :
    resolved tree directory = ofPlace (lexical [] directory) := by
  obtain ⟨result,hresult,hfound,_⟩ := resolveLoop_spec directory [] (Nat.lt_succ_self _)
  rw [resolved,hresult,Option.getD_some,hfound h,List.map_nil,List.append_nil]

theorem resolved_of_lost (h : ¬Anchored tree directory) : resolved tree directory = directory := by
  obtain ⟨result,hresult,_,hlost⟩ := resolveLoop_spec directory [] (Nat.lt_succ_self _)
  rw [resolved,hresult,Option.getD_some,hlost h]

/-- A path that climbs from what is not there has dots in it. -/
theorem up_mem_of_lost (h : ¬Anchored tree directory) : .up ∈ directory := by
  by_contra hnone
  refine h ⟨[],?_⟩
  have hnil : climbs directory = [] := by
    refine List.rdropWhile_eq_nil_iff.mpr fun c hc => ?_
    cases c with
    | up => exact absurd hc hnone
    | cur => rfl
    | name n => rfl
  rw [hnil]
  rfl

theorem readPath_ofPlace {material : Bytes} : readPath tree (ofPlace place) = .ok material ↔
    tree.node place = some (.file material) ∧ material.length < 2 ^ 63 := by
  have hlexical : lexical [] (ofPlace place) = place := by
    rw [lexical,ofPlace,List.foldl_map,List.foldl_reverse]
    exact List.foldr_cons_nil
  constructor
  · intro h
    obtain ⟨q,hq,hnode⟩ := bind_eq_ok.mp h
    have hplace := Tree.walk_eq_lexical (canonicalize_eq_ok.mp hq)
    rw [hlexical] at hplace
    rw [hplace] at hnode
    split at hnode
    · next content hfile =>
      split_ifs at hnode with hfits
      obtain rfl := Except.ok.inj hnode
      exact ⟨hfile,hfits⟩
    · cases hnode
    · cases hnode
  · rintro ⟨hfile,hfits⟩
    have hwalk : tree.walk [] (ofPlace place) = .ok place :=
      Tree.walk_names (by rw [hfile]; rfl)
    refine bind_eq_ok.mpr ⟨place,canonicalize_eq_ok.mpr hwalk,?_⟩
    rw [hfile]
    exact if_pos hfits

theorem load_ofPlace {key : HandoffKey} : HandoffKey.load tree (ofPlace place) = .ok key ↔
    tree.node place = some (.file key.material) ∧ key.material.length < 2 ^ 63 := by
  rw [← readPath_ofPlace]
  constructor
  · intro h
    obtain ⟨material,hread,hkey⟩ := bind_eq_ok.mp h
    unfold HandoffKey.fromBytes at hkey
    split_ifs at hkey with hlong
    rw [← Except.ok.inj hkey]
    exact mapError_eq_ok.mp hread
  · intro h
    exact bind_eq_ok.mpr ⟨_,mapError_eq_ok.mpr h,dif_pos key.long⟩

section
variable [DecidableEq Name]

theorem startsWith_ofPlace {base : List Name} :
    startsWith (ofPlace place) (ofPlace base) = true ↔ base <:+ place := by
  have hinj : Function.Injective (Component.name : Name → Component Name) :=
    fun _ _ h => Component.name.inj h
  rw [startsWith,components_ofPlace,components_ofPlace,List.isPrefixOf_iff_prefix,ofPlace,ofPlace,
    List.prefix_map_iff_of_injective hinj,List.reverse_prefix]

/-- No key is below a path with dots in it. -/
theorem not_startsWith_of_up (h : .up ∈ directory) :
    startsWith (ofPlace place) directory = false := by
  rw [startsWith,components_ofPlace,← Bool.not_eq_true,List.isPrefixOf_iff_prefix]
  intro hprefix
  have hmem := hprefix.subset (List.mem_filter.mpr ⟨h,rfl⟩)
  obtain ⟨_,_,hn⟩ := List.mem_map.mp hmem
  cases hn

theorem createDirAll_spec {after : Disk Name} (h : createDirAll tree directory = .ok after) :
    tree.Extends after ∧ canonicalize after directory = .ok (lexical [] directory) := by
  obtain ⟨r,hr,hafter⟩ := bind_eq_ok.mp h
  obtain rfl := Except.ok.inj hafter
  obtain ⟨hext,_,hwalk⟩ := Tree.createAll_spec (isDir_root tree) (mapError_eq_ok.mp hr)
  rw [← Tree.walk_eq_lexical hwalk]
  exact ⟨hext,canonicalize_eq_ok.mpr hwalk⟩

theorem loadFor_eq_ok {key : HandoffKey} : HandoffKey.loadFor tree path directory = .ok key ↔
    ∃ place, canonicalize tree path = .ok place ∧
      startsWith (ofPlace place) (resolved tree directory) = false ∧
      tree.node place = some (.file key.material) ∧ key.material.length < 2 ^ 63 := by
  constructor
  · intro h
    obtain ⟨place,hplace,hload⟩ := bind_eq_ok.mp h
    split_ifs at hload with hinside
    exact ⟨place,mapError_eq_ok.mp hplace,Bool.eq_false_of_not_eq_true hinside,
      load_ofPlace.mp hload⟩
  · rintro ⟨place,hplace,houtside,hkey⟩
    refine bind_eq_ok.mpr ⟨place,mapError_eq_ok.mpr hplace,?_⟩
    rw [if_neg (by rw [houtside]; simp)]
    exact load_ofPlace.mpr hkey

end
end

section
variable [DecidableEq Name]

/-- Whatever key is loaded, it is not below the handoff directory once that is created. -/
def KeptOut (tree : Disk Name) (path directory : AbsolutePath Name) : Prop :=
  ∀ key after keyPlace dirPlace, HandoffKey.loadFor tree path directory = .ok key →
    createDirAll tree directory = .ok after → canonicalize after path = .ok keyPlace →
      canonicalize after directory = .ok dirPlace → ¬dirPlace <:+ keyPlace

/-- A usable key is below the place of a directory that can be created. -/
def KeyInside (tree : Disk Name) (path directory : AbsolutePath Name) : Prop :=
  ∃ place, ∃ key : HandoffKey, ∃ after, canonicalize tree path = .ok place ∧
    tree.node place = some (.file key.material) ∧ key.material.length < 2 ^ 63 ∧
      lexical [] directory <:+ place ∧ createDirAll tree directory = .ok after

/-- The loop ends on every path. Keys inside are refused exactly when the directory is there up
to its last `..`. -/
theorem keptOut_iff (tree : Disk Name) (path directory : AbsolutePath Name) :
    ((∃ result, resolveLoop tree directory (directory.length + 1) directory [] = some result) ∧
      KeptOut tree path directory) ↔ (KeyInside tree path directory → Anchored tree directory) := by
  have hends : ∃ result,
      resolveLoop tree directory (directory.length + 1) directory [] = some result :=
    (resolveLoop_spec directory [] (Nat.lt_succ_self _)).imp fun _ h => h.1
  rw [and_iff_right hends]
  constructor
  · rintro hkept ⟨place,key,after,hplace,hfile,hfits,hinside,hafter⟩
    by_contra hlost
    obtain ⟨hext,hdir⟩ := createDirAll_spec hafter
    have houtside : startsWith (ofPlace place) (resolved tree directory) = false := by
      rw [resolved_of_lost hlost]
      exact not_startsWith_of_up (up_mem_of_lost hlost)
    exact hkept key after place _ (loadFor_eq_ok.mpr ⟨place,hplace,houtside,hfile,hfits⟩) hafter
      (canonicalize_eq_ok.mpr (hext.walk (canonicalize_eq_ok.mp hplace))) hdir hinside
  · intro hanchored key after keyPlace dirPlace hload hafter hkey hdir hinside
    obtain ⟨place,hplace,houtside,hfile,hfits⟩ := loadFor_eq_ok.mp hload
    obtain ⟨hext,hdir'⟩ := createDirAll_spec hafter
    obtain rfl := Except.ok.inj (hdir'.symm.trans hdir)
    have hkey' := canonicalize_eq_ok.mpr (hext.walk (canonicalize_eq_ok.mp hplace))
    obtain rfl := Except.ok.inj (hkey'.symm.trans hkey)
    have hknown := hanchored ⟨place,key,after,hplace,hfile,hfits,hinside,hafter⟩
    rw [resolved_of_anchored hknown,startsWith_ofPlace.mpr hinside] at houtside
    cases houtside

end

/-- A handoff that is there already, with a key in it. -/
def exampleDisk : Disk String where
  node place :=
    if place = [] ∨ place = ["run"] ∨ place = ["handoff","run"] then some .dir
    else if place = ["key","handoff","run"] then some (.file (List.replicate 32 9)) else none
  root := rfl
  closed name place h := by
    by_cases hkey : name :: place = ["key","handoff","run"]
    · obtain ⟨_,rfl⟩ := List.cons.inj hkey
      rfl
    · have hdir : name = "run" ∧ place = [] ∨ name = "handoff" ∧ place = ["run"] := by
        simpa [hkey] using h
      rcases hdir with ⟨_,rfl⟩ | ⟨_,rfl⟩
      · rfl
      · rfl

def exampleKeyPath : AbsolutePath String := [.name "run",.name "handoff",.name "key"]

/-- `/run/missing/../handoff` -/
def exampleHandoffPath : AbsolutePath String :=
  [.name "run",.name "missing",.up,.name "handoff"]

theorem loadFor_accepts_inside : ∃ key after,
    HandoffKey.loadFor exampleDisk exampleKeyPath exampleHandoffPath = .ok key ∧
      createDirAll exampleDisk exampleHandoffPath = .ok after ∧
      canonicalize after exampleKeyPath = .ok ["key","handoff","run"] ∧
      canonicalize after exampleHandoffPath = .ok ["handoff","run"] ∧
      ["handoff","run"] <:+ ["key","handoff","run"] :=
  ⟨⟨List.replicate 32 9,by decide⟩,_,by decide,rfl,by decide,by decide,by decide⟩

end HearthAI.Contracts
