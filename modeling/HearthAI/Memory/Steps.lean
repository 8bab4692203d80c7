import HearthAI.Core.Fallible
import HearthAI.Memory.Store

/-! # What each operation of the store does to the disk

One lemma for each way an operation can go; the results about runs use these and
do not look into the operations again.
-/
namespace HearthAI.Memory
open Python Effect

def Snapshot.withTree (s : Snapshot) (tree : Tree) : Snapshot := { s with tree := tree }

@[simp] theorem Snapshot.withTree_tree (s : Snapshot) (tree : Tree) :
    (s.withTree tree).tree = tree := rfl
@[simp] theorem Snapshot.withTree_head (s : Snapshot) (tree : Tree) :
    (s.withTree tree).head = s.head := rfl

@[simp] theorem goTo_apply (f : Snapshot → Snapshot) (disk : Disk) :
    goTo f disk = (.ok (),⟨f disk.now,disk.trail ++ [f disk.now]⟩) := rfl
@[simp] theorem change_apply (f : Tree → Tree) (disk : Disk) :
    change f disk = (.ok (),⟨disk.now.withTree (f disk.now.tree),
      disk.trail ++ [disk.now.withTree (f disk.now.tree)]⟩) := rfl

theorem lift_builtin {α : Type} {r : Except Builtin α} {a : α} (h : r = .ok a) (disk : Disk) :
    (lift (liftBuiltin r) : Op α) disk = (.ok a,disk) := by
  rw [lift_apply,liftBuiltin,mapError_eq_ok.mpr h]

theorem lift_builtin_error {α : Type} {r : Except Builtin α} {e : Builtin} (h : r = .error e)
    (disk : Disk) : (lift (liftBuiltin r) : Op α) disk = (.error (.builtin e),disk) := by
  rw [lift_apply,liftBuiltin,mapError_eq_error.mpr ⟨e,h,rfl⟩]

theorem encode_ok {s : Str} {bytes : Text.Bytes} : encode s = .ok bytes ↔ encodeUtf8 s = some bytes := by
  unfold encode
  cases encodeUtf8 s <;> simp

section
variable {disk : Disk} {name : Str} {target : Target} {text : Str} {dir truncated written : StoreDir}

/-- The file is truncated in one step and written in the next. -/
theorem writeText_ok (hdir : disk.now.tree.get name = some dir)
    (htruncated : target.put [] dir = some truncated) (hwritten : target.put text dir = some written)
    (hencodable : Utf8Encodable text) :
    writeText name target text disk =
      (.ok (),⟨disk.now.withTree (disk.now.tree.set name written),
        disk.trail ++ [disk.now.withTree (disk.now.tree.set name truncated),
          disk.now.withTree (disk.now.tree.set name written)]⟩) := by
  obtain ⟨bytes,hbytes⟩ := Option.isSome_iff_exists.mp hencodable
  simp only [writeText,bind_apply,read_apply,hdir,htruncated,hwritten,change_apply,lift_apply,
    encode_ok.mpr hbytes,Snapshot.withTree_tree,Dict.set_set]
  simp [Snapshot.withTree]

theorem writeText_unencodable (hdir : disk.now.tree.get name = some dir)
    (htruncated : target.put [] dir = some truncated) (hwritten : target.put text dir = some written)
    (hencodable : ¬Utf8Encodable text) :
    writeText name target text disk =
      (.error (.builtin .unicodeEncodeError),⟨disk.now.withTree (disk.now.tree.set name truncated),
        disk.trail ++ [disk.now.withTree (disk.now.tree.set name truncated)]⟩) := by
  have hencode : encode text = .error (.builtin .unicodeEncodeError) := by
    unfold encode
    cases h : encodeUtf8 text with
    | none => rfl
    | some bytes => exact absurd (by rw [Utf8Encodable,h]; rfl) hencodable
  simp only [writeText,bind_apply,read_apply,hdir,htruncated,hwritten,change_apply,lift_apply,
    hencode]

theorem writeText_missing (hdir : disk.now.tree.get name = some dir) (hput : target.put text dir = none)
    (hput' : target.put [] dir = none) :
    writeText name target text disk = (.error (.builtin .fileNotFoundError),disk) := by
  simp only [writeText,bind_apply,read_apply,hdir,hput,hput',raise_apply]

end

/-- The disk is in a state, after steps that left the working tree as it is there. -/
def Settled (s : Snapshot) (trail : List Snapshot) (disk : Disk) : Prop :=
  disk.now = s ∧ ∃ more, disk.trail = trail ++ more ∧ ∀ x ∈ more, x.tree = s.tree

/-- The commit gets as far as the message, and the message cannot be passed to git. -/
def Git.Refuses (git : Git) (message : Str) (s : Snapshot) : Prop :=
  git.add = true ∧ git.status = true ∧ argumentError message ≠ none ∧ files s.tree ≠ s.head

/-- What a commit can raise: git's own failure, or the refusal of its message. -/
def CommitFailure (git : Git) (message : Str) (s : Snapshot) (e : Failure) : Prop :=
  e = .calledProcess ∨
    (∃ error, argumentError message = some error ∧ e = .builtin error) ∧ git.Refuses message s

@[simp] theorem gitCommand_apply (succeeds : Bool) (f : Snapshot → Snapshot) (disk : Disk) :
    gitCommand succeeds f disk = if succeeds = false then (.error .calledProcess,disk)
      else (.ok (),⟨f disk.now,disk.trail ++ [f disk.now]⟩) := by
  unfold gitCommand
  by_cases h : succeeds = false
  · rw [if_pos h,bind_error (raiseIf_pos h _ _)]
  · rw [if_neg h,bind_ok (raiseIf_neg h _ _),goTo_apply]

/-- A commit runs one git command after the other and stops at the first that fails. -/
theorem commit_apply (git : Git) (message : Str) (s : Snapshot) (trail : List Snapshot) :
    commit git message ⟨s,trail⟩ =
      if git.add = false then (.error .calledProcess,⟨s,trail⟩)
      else if git.status = false then (.error .calledProcess,⟨s,trail ++ [s]⟩)
      else if files s.tree = s.head then (.ok (),⟨s,trail ++ [s,s]⟩)
      else match argumentError message with
        | some error => (.error (.builtin error),⟨s,trail ++ [s,s]⟩)
        | none => if git.commit = false then (.error .calledProcess,⟨s,trail ++ [s,s]⟩)
          else (.ok (),⟨{ s with head := files s.tree },
            trail ++ [s,s,{ s with head := files s.tree }]⟩) := by
  unfold commit
  rw [bind_apply,gitCommand_apply]
  by_cases hadd : git.add = false
  · rw [if_pos hadd,if_pos hadd]
  rw [if_neg hadd,if_neg hadd]
  dsimp only [id_eq]
  rw [bind_apply,gitCommand_apply]
  by_cases hstatus : git.status = false
  · rw [if_pos hstatus,if_pos hstatus]
  rw [if_neg hstatus,if_neg hstatus]
  dsimp only [id_eq]
  rw [bind_ok (read_apply _)]
  by_cases hclean : files s.tree = s.head
  · rw [if_pos hclean,if_neg (not_not.mpr hclean),pure_apply,List.append_assoc]
    rfl
  rw [if_neg hclean,if_pos hclean]
  cases argumentError message with
  | some error =>
    dsimp only
    rw [raise_apply,List.append_assoc]
    rfl
  | none =>
    dsimp only
    rw [gitCommand_apply]
    simp only [List.append_assoc,List.cons_append,List.nil_append]

/-- Git never touches the working tree, and changes nothing when it raises. -/
theorem commit_spec (git : Git) (message : Str) (s : Snapshot) (trail : List Snapshot) :
    Exit (fun _ d => Settled ⟨s.tree,files s.tree⟩ trail d)
      (fun e d => CommitFailure git message s e ∧ Settled s trail d)
      (commit git message ⟨s,trail⟩) := by
  have hmore : ∀ more : List Snapshot, (∀ x ∈ more, x.tree = s.tree) →
      Settled s trail ⟨s,trail ++ more⟩ := fun more h => ⟨rfl,more,rfl,h⟩
  rw [commit_apply]
  by_cases hadd : git.add = false
  · rw [if_pos hadd]
    exact ⟨.inl rfl,by simpa using hmore [] (by simp)⟩
  rw [if_neg hadd]
  by_cases hstatus : git.status = false
  · rw [if_pos hstatus]
    exact ⟨.inl rfl,hmore _ (by simp)⟩
  rw [if_neg hstatus]
  by_cases hclean : files s.tree = s.head
  · rw [if_pos hclean,hclean]
    exact hmore _ (by simp)
  rw [if_neg hclean]
  cases herror : argumentError message with
  | some error =>
    have hrefuses : git.Refuses message s :=
      ⟨by simpa using hadd,by simpa using hstatus,by rw [herror]; simp,hclean⟩
    exact ⟨.inr ⟨⟨error,herror,rfl⟩,hrefuses⟩,hmore _ (by simp)⟩
  | none =>
    dsimp only
    split_ifs with hcommit
    · exact ⟨.inl rfl,hmore _ (by simp)⟩
    · exact ⟨rfl,_,rfl,by simp⟩

theorem commit_error {git : Git} {message : Str} {s : Snapshot} {trail : List Snapshot} {e : Failure}
    {after : Disk} (h : commit git message ⟨s,trail⟩ = (.error e,after)) :
    CommitFailure git message s e ∧ Settled s trail after := by
  simpa only [h,exit_error] using commit_spec git message s trail

theorem commit_ok {git : Git} {message : Str} {s : Snapshot} {trail : List Snapshot} {u : Unit}
    {after : Disk} (h : commit git message ⟨s,trail⟩ = (.ok u,after)) :
    Settled ⟨s.tree,files s.tree⟩ trail after := by
  simpa only [h,exit_ok] using commit_spec git message s trail

/-- A commit that is refused leaves everything as it is. -/
theorem commit_refuses {git : Git} {message : Str} {s : Snapshot} (h : git.Refuses message s)
    (trail : List Snapshot) : ∃ error,
    commit git message ⟨s,trail⟩ = (.error (.builtin error),⟨s,trail ++ [s,s]⟩) := by
  obtain ⟨hadd,hstatus,herror,hdirty⟩ := h
  obtain ⟨error,herror⟩ := Option.ne_none_iff_exists'.mp herror
  rw [commit_apply,if_neg (by simp [hadd]),if_neg (by simp [hstatus]),if_neg hdirty,herror]
  exact ⟨error,rfl⟩

/-- A commit by a git that works, of a message that can be passed to it. -/
theorem commit_working {message : Str} (h : argumentError message = none) (s : Snapshot)
    (trail : List Snapshot) : commit .working message ⟨s,trail⟩ =
      if files s.tree = s.head then (.ok (),⟨s,trail ++ [s,s]⟩)
      else (.ok (),⟨{ s with head := files s.tree },
        trail ++ [s,s,{ s with head := files s.tree }]⟩) := by
  rw [commit_apply,if_neg (by simp [Git.working]),if_neg (by simp [Git.working]),h]
  simp only [Git.working,Bool.true_eq_false,if_false]

theorem encode_error {s : Str} {e : Failure} (h : encode s = .error e) :
    e = .builtin .unicodeEncodeError := by
  unfold encode at h
  cases hs : encodeUtf8 s with
  | some bytes => simp [hs] at h
  | none =>
    simp only [hs] at h
    exact (Except.error.inj h).symm

theorem tokenDigest_error {lib : Library} {token : Value} {e : Failure}
    (h : tokenDigest lib token = .error e) : ∃ b, e = .builtin b := by
  unfold tokenDigest at h
  rcases bind_eq_error.mp h with h | ⟨_,_,h⟩
  · obtain ⟨b,_,rfl⟩ := mapError_eq_error.mp h
    exact ⟨b,rfl⟩
  rcases bind_eq_error.mp h with h | ⟨_,_,h⟩
  · exact ⟨_,encode_error h⟩
  · cases h

section
variable {digest : Str}

theorem findDuplicate_none {files : List (Str × Str)} :
    findDuplicate digest files = .ok none ↔ ∀ file ∈ files, ∃ info body,
      loadFile file.2 = .ok (info,body) ∧ info.get (lit "content_sha256") ≠ some (.str digest) := by
  induction files with
  | nil => simp [findDuplicate]
  | cons file files ih =>
    rw [List.forall_mem_cons,← ih,findDuplicate]
    cases hload : loadFile file.2 with
    | error e => simp
    | ok loaded =>
      obtain ⟨info,body⟩ := loaded
      by_cases hdigest : info.get (lit "content_sha256") = some (.str digest)
      · simp [hdigest]
      · simp [hdigest]

theorem findDuplicate_some {files : List (Str × Str)} {info : Meta}
    (h : findDuplicate digest files = .ok (some info)) : ∃ file ∈ files, ∃ body,
      loadFile file.2 = .ok (info,body) ∧ info.get (lit "content_sha256") = some (.str digest) := by
  induction files with
  | nil => simp [findDuplicate] at h
  | cons file files ih =>
    rw [findDuplicate] at h
    cases hload : loadFile file.2 with
    | error e => simp [hload] at h
    | ok loaded =>
      obtain ⟨found,body⟩ := loaded
      simp only [hload] at h
      split_ifs at h with hdigest
      · rw [Option.some.inj (Except.ok.inj h)] at hload hdigest
        exact ⟨file,List.mem_cons_self,body,hload,hdigest⟩
      · obtain ⟨file',hmem,rest⟩ := ih h
        exact ⟨file',List.mem_cons_of_mem _ hmem,rest⟩

theorem findDuplicate_error {files : List (Str × Str)} {e : FrontmatterError}
    (h : findDuplicate digest files = .error e) : ∃ file ∈ files, loadFile file.2 = .error e := by
  induction files with
  | nil => simp [findDuplicate] at h
  | cons file files ih =>
    rw [findDuplicate] at h
    cases hload : loadFile file.2 with
    | error e' =>
      simp only [hload] at h
      exact ⟨file,List.mem_cons_self,by rw [hload,Except.error.inj h]⟩
    | ok loaded =>
      simp only [hload] at h
      split_ifs at h
      obtain ⟨file',hmem,rest⟩ := ih h
      exact ⟨file',List.mem_cons_of_mem _ hmem,rest⟩

end

section
variable {lib : Library} {tree : Tree} {args : EntryArgs}

theorem dirFor_ok {token : Value} {name : Str} {dir : StoreDir} :
    dirFor lib tree token = .ok (name,dir) ↔
      tokenDigest lib token = .ok name ∧ tree.get name = some dir := by
  unfold dirFor
  rw [bind_eq_ok]
  constructor
  · rintro ⟨name',hname,h⟩
    cases hget : tree.get name' with
    | none => simp [hget] at h
    | some dir' =>
      simp only [hget,Except.ok.injEq,Prod.mk.injEq] at h
      obtain ⟨rfl,rfl⟩ := h
      exact ⟨hname,hget⟩
  · rintro ⟨hname,hget⟩
    exact ⟨name,hname,by rw [hget]⟩

/-- What has been established when a new entry is about to be written. -/
structure Ready (lib : Library) (tree : Tree) (args : EntryArgs) (entry : NewEntry)
    (dir : StoreDir) (digest : Str) (pending : Pending) : Prop where
  checked : args.check lib = .ok entry
  found : dirFor lib tree args.token = .ok (pending.dirName,dir)
  digested : ∃ bytes, encodeUtf8 entry.content = some bytes ∧ digest = lib.hexdigest bytes
  unlisted : ∀ file ∈ sortedEntries dir, ∃ info body,
    loadFile file.2 = .ok (info,body) ∧ info.get (lit "content_sha256") ≠ some (.str digest)
  pending_eq : pending = entry.pending pending.dirName digest args.now

theorem prepare_write {pending : Pending} : prepare lib tree args = .ok (.write pending) ↔
    ∃ entry dir digest, Ready lib tree args entry dir digest pending := by
  unfold prepare
  constructor
  · intro h
    obtain ⟨entry,hentry,h⟩ := bind_eq_ok.mp h
    obtain ⟨⟨dirName,dir⟩,hdir,h⟩ := bind_eq_ok.mp h
    obtain ⟨bytes,hbytes,h⟩ := bind_eq_ok.mp h
    obtain ⟨found,hfound,h⟩ := bind_eq_ok.mp h
    cases found with
    | some info => cases h
    | none =>
      have hpending : entry.pending dirName (lib.hexdigest bytes) args.now = pending :=
        Prepared.write.inj (Except.ok.inj h)
      rw [← hpending]
      exact ⟨entry,dir,lib.hexdigest bytes,hentry,hdir,⟨bytes,encode_ok.mp hbytes,rfl⟩,
        findDuplicate_none.mp (mapError_eq_ok.mp hfound),rfl⟩
  · rintro ⟨entry,dir,digest,hentry,hdir,⟨bytes,hbytes,rfl⟩,hunlisted,hpending⟩
    refine bind_eq_ok.mpr ⟨entry,hentry,bind_eq_ok.mpr ⟨_,hdir,bind_eq_ok.mpr ⟨bytes,
      encode_ok.mpr hbytes,bind_eq_ok.mpr ⟨none,?_,?_⟩⟩⟩⟩
    · exact mapError_eq_ok.mpr (findDuplicate_none.mpr hunlisted)
    · exact congrArg (fun p => Except.ok (Prepared.write p)) hpending.symm

theorem prepare_duplicate {info : Meta} (h : prepare lib tree args = .ok (.duplicate info)) :
    ∃ entry name dir bytes, args.check lib = .ok entry ∧
      dirFor lib tree args.token = .ok (name,dir) ∧ encodeUtf8 entry.content = some bytes ∧
      findDuplicate (lib.hexdigest bytes) (sortedEntries dir) = .ok (some info) := by
  unfold prepare at h
  obtain ⟨entry,hentry,h⟩ := bind_eq_ok.mp h
  obtain ⟨⟨dirName,dir⟩,hdir,h⟩ := bind_eq_ok.mp h
  obtain ⟨bytes,hbytes,h⟩ := bind_eq_ok.mp h
  obtain ⟨found,hfound,h⟩ := bind_eq_ok.mp h
  cases found with
  | none => cases h
  | some found =>
    cases h
    exact ⟨entry,dirName,dir,bytes,hentry,hdir,encode_ok.mp hbytes,mapError_eq_ok.mp hfound⟩

variable (git : Git) (disk : Disk)

theorem addEntry_refused {e : Failure} (h : prepare lib disk.now.tree args = .error e) :
    addEntry lib git args disk = (.error e,disk) := by
  simp [addEntry,bind_apply,h]

theorem addEntry_duplicate {info : Meta}
    (h : prepare lib disk.now.tree args = .ok (.duplicate info)) :
    addEntry lib git args disk = (.ok ⟨info,true⟩,disk) := by
  simp [addEntry,bind_apply,h]

theorem addEntry_write {pending : Pending}
    (h : prepare lib disk.now.tree args = .ok (.write pending)) :
    addEntry lib git args disk = pending.store git disk := by
  simp [addEntry,bind_apply,h]

end

theorem mem_sortedEntries {dir : StoreDir} {file : Str × Str} : file ∈ sortedEntries dir ↔
    file ∈ dir.entries.getD [] ∧ endsWith (lit ".md") file.1 = true := by
  rw [sortedEntries,List.mem_mergeSort,List.mem_filter]

theorem endsWith_entryName (digest content : Str) (now : Timestamp) :
    endsWith (lit ".md") (entryName digest content now) = true := by
  rw [endsWith,entryName,List.isSuffixOf_iff_suffix]
  exact List.suffix_append _ _

/-- The directory after a file of the pending entry was given this text. -/
def Pending.shelve (pending : Pending) (text : Str) (dir : StoreDir) (files : Dict Str Str) :
    StoreDir :=
  { dir with entries := some (files.set pending.name text) }

section
variable {disk : Disk} {pending : Pending} {dir : StoreDir} {files : Dict Str Str}

/-- The snapshot in which the file has this text. -/
def Pending.at (pending : Pending) (text : Str) (s : Snapshot) (dir : StoreDir)
    (files : Dict Str Str) : Snapshot :=
  s.withTree (s.tree.set pending.dirName (pending.shelve text dir files))

theorem store_unencodable (git : Git) (hdir : disk.now.tree.get pending.dirName = some dir)
    (hfiles : dir.entries = some files) (hencodable : ¬Utf8Encodable pending.text) :
    pending.store git disk = (.error (.builtin .unicodeEncodeError),
      ⟨pending.at [] disk.now dir files,disk.trail ++ [pending.at [] disk.now dir files]⟩) := by
  have hwrite : writeText pending.dirName (.entry pending.name) pending.text disk = _ :=
    writeText_unencodable hdir (by rw [Target.put,hfiles]; rfl) (by rw [Target.put,hfiles]; rfl)
      hencodable
  rw [Pending.store,bind_error hwrite]
  rfl

theorem store_missing (git : Git) (hdir : disk.now.tree.get pending.dirName = some dir)
    (hfiles : dir.entries = none) :
    pending.store git disk = (.error (.builtin .fileNotFoundError),disk) := by
  have hwrite : writeText pending.dirName (.entry pending.name) pending.text disk =
      (.error (.builtin .fileNotFoundError),disk) :=
    writeText_missing hdir (by rw [Target.put,hfiles]; rfl) (by rw [Target.put,hfiles]; rfl)
  rw [Pending.store,bind_error hwrite]

/-- After the two steps of the write, the rest is the commit. -/
theorem store_encodable (git : Git) (hdir : disk.now.tree.get pending.dirName = some dir)
    (hfiles : dir.entries = some files) (hencodable : Utf8Encodable pending.text) :
    pending.store git disk = (do
      commit git pending.message
      return ⟨pending.info,false⟩ : Op Added)
        ⟨pending.at pending.text disk.now dir files,disk.trail ++
          [pending.at [] disk.now dir files,pending.at pending.text disk.now dir files]⟩ := by
  have hwrite : writeText pending.dirName (.entry pending.name) pending.text disk =
      (.ok (),⟨pending.at pending.text disk.now dir files,disk.trail ++
        [pending.at [] disk.now dir files,pending.at pending.text disk.now dir files]⟩) :=
    writeText_ok hdir (by rw [Target.put,hfiles]; rfl) (by rw [Target.put,hfiles]; rfl) hencodable
  rw [Pending.store,bind_ok hwrite]

theorem store_spec (git : Git) (disk : Disk) (hdir : disk.now.tree.get pending.dirName = some dir)
    (hfiles : dir.entries = some files) (hencodable : Utf8Encodable pending.text) :
    Exit (fun added d => added = ⟨pending.info,false⟩ ∧
        Settled ⟨(pending.at pending.text disk.now dir files).tree,
          Memory.files (pending.at pending.text disk.now dir files).tree⟩
            (disk.trail ++ [pending.at [] disk.now dir files,
              pending.at pending.text disk.now dir files]) d)
      (fun e d => CommitFailure git pending.message (pending.at pending.text disk.now dir files) e ∧
        Settled (pending.at pending.text disk.now dir files)
          (disk.trail ++ [pending.at [] disk.now dir files,
            pending.at pending.text disk.now dir files]) d)
      (pending.store git disk) := by
  rw [store_encodable git hdir hfiles hencodable]
  have hcommit := commit_spec git pending.message (pending.at pending.text disk.now dir files)
    (disk.trail ++ [pending.at [] disk.now dir files,pending.at pending.text disk.now dir files])
  rw [bind_apply]
  rcases hrun : commit git pending.message _ with ⟨e | u,after⟩
  · rwa [hrun] at hcommit
  · rw [hrun] at hcommit
    exact ⟨rfl,hcommit⟩

end

/-- A call that returns has found its content, or has written its file. -/
theorem addEntry_ok {lib : Library} {git : Git} {args : EntryArgs} {s t : Snapshot}
    {trail : List Snapshot} {added : Added}
    (h : addEntry lib git args ⟨s,[]⟩ = (.ok added,⟨t,trail⟩)) :
    (∃ info, prepare lib s.tree args = .ok (.duplicate info) ∧ added = ⟨info,true⟩ ∧ t = s) ∨
    ∃ entry dir digest pending files, Ready lib s.tree args entry dir digest pending ∧
      dir.entries = some files ∧ added = ⟨pending.info,false⟩ ∧
      t.tree = s.tree.set pending.dirName (pending.shelve pending.text dir files) ∧
      t.head = Memory.files t.tree := by
  cases hprepare : prepare lib s.tree args with
  | error e =>
    rw [addEntry_refused git ⟨s,[]⟩ hprepare] at h
    cases (Prod.mk.inj h).1
  | ok prepared =>
    cases prepared with
    | duplicate info =>
      rw [addEntry_duplicate git ⟨s,[]⟩ hprepare] at h
      obtain ⟨hadded,hdisk⟩ := Prod.mk.inj h
      exact .inl ⟨info,rfl,(Except.ok.inj hadded).symm,(Disk.mk.inj hdisk).1.symm⟩
    | write pending =>
      obtain ⟨entry,dir,digest,hready⟩ := prepare_write.mp hprepare
      have hdir := (dirFor_ok.mp hready.found).2
      rw [addEntry_write git ⟨s,[]⟩ hprepare] at h
      cases hfiles : dir.entries with
      | none =>
        rw [store_missing git hdir hfiles] at h
        cases (Prod.mk.inj h).1
      | some files =>
        by_cases hencodable : Utf8Encodable pending.text
        · have hstore := store_spec git ⟨s,[]⟩ hdir hfiles hencodable
          rw [h] at hstore
          obtain ⟨hadded,hnow,_⟩ := hstore
          subst hnow
          exact .inr ⟨entry,dir,digest,pending,files,hready,hfiles,hadded,rfl,rfl⟩
        · rw [store_unencodable git hdir hfiles hencodable] at h
          cases (Prod.mk.inj h).1

/-- A call whose text can be encoded writes all of its file or nothing, even when it raises. -/
theorem addEntry_tree {lib : Library} {git : Git} {args : EntryArgs} {s : Snapshot} {after : Disk}
    {result : Except Failure Added} (h : addEntry lib git args ⟨s,[]⟩ = (result,after))
    (hencodable : ∀ entry dir digest pending, Ready lib s.tree args entry dir digest pending →
      Utf8Encodable pending.text) :
    after.now.tree = s.tree ∨
    ∃ entry dir digest pending files, Ready lib s.tree args entry dir digest pending ∧
      dir.entries = some files ∧
      after.now.tree = s.tree.set pending.dirName (pending.shelve pending.text dir files) := by
  cases hprepare : prepare lib s.tree args with
  | error e =>
    rw [addEntry_refused git ⟨s,[]⟩ hprepare] at h
    rw [← (Prod.mk.inj h).2]
    exact .inl rfl
  | ok prepared =>
    cases prepared with
    | duplicate info =>
      rw [addEntry_duplicate git ⟨s,[]⟩ hprepare] at h
      rw [← (Prod.mk.inj h).2]
      exact .inl rfl
    | write pending =>
      obtain ⟨entry,dir,digest,hready⟩ := prepare_write.mp hprepare
      have hdir := (dirFor_ok.mp hready.found).2
      rw [addEntry_write git ⟨s,[]⟩ hprepare] at h
      cases hfiles : dir.entries with
      | none =>
        rw [store_missing git hdir hfiles] at h
        rw [← (Prod.mk.inj h).2]
        exact .inl rfl
      | some files =>
        have hstore := store_spec git ⟨s,[]⟩ hdir hfiles (hencodable _ _ _ _ hready)
        rw [h] at hstore
        refine .inr ⟨entry,dir,digest,pending,files,hready,hfiles,?_⟩
        cases result with
        | ok added => rw [hstore.2.1]; rfl
        | error e => rw [hstore.2.1]; rfl

/-- A call that raises has committed nothing, whatever it has written. -/
theorem addEntry_head {lib : Library} {git : Git} {args : EntryArgs} {s : Snapshot} {after : Disk}
    {e : Failure} (h : addEntry lib git args ⟨s,[]⟩ = (.error e,after)) :
    after.now.head = s.head := by
  cases hprepare : prepare lib s.tree args with
  | error e =>
    rw [addEntry_refused git ⟨s,[]⟩ hprepare] at h
    rw [← (Prod.mk.inj h).2]
  | ok prepared =>
    cases prepared with
    | duplicate info =>
      rw [addEntry_duplicate git ⟨s,[]⟩ hprepare] at h
      cases (Prod.mk.inj h).1
    | write pending =>
      obtain ⟨entry,dir,digest,hready⟩ := prepare_write.mp hprepare
      have hdir := (dirFor_ok.mp hready.found).2
      rw [addEntry_write git ⟨s,[]⟩ hprepare] at h
      cases hfiles : dir.entries with
      | none =>
        rw [store_missing git hdir hfiles] at h
        rw [← (Prod.mk.inj h).2]
      | some files =>
        by_cases hencodable : Utf8Encodable pending.text
        · have hstore := store_spec git ⟨s,[]⟩ hdir hfiles hencodable
          rw [h] at hstore
          rw [hstore.2.1]
          rfl
        · rw [store_unencodable git hdir hfiles hencodable] at h
          rw [← (Prod.mk.inj h).2]
          rfl

end HearthAI.Memory
