import HearthAI.Memory.Steps

/-! # What creating a store does to the disk -/
namespace HearthAI.Memory
open Python Effect
variable {lib : Library} {args : CreateArgs} {purpose author name : Str}

/-- The text of `store.md`. -/
def storeText (purpose author : Str) (now : Timestamp) : Str :=
  dumps (storeMeta purpose author now) (lit "# " ++ purpose ++ [lineFeed])

/-- The arguments pass the checks and no store has the token yet. -/
structure Opens (lib : Library) (tree : Tree) (args : CreateArgs) (purpose name : Str) : Prop where
  stripped : (args.purpose.orElse (.str [])).strip = .ok purpose
  nonempty : purpose ≠ []
  digested : tokenDigest lib (.str args.token) = .ok name
  unused : tree.get name = none

/-- The disk after the two directories were made. -/
def Disk.opened (disk : Disk) (name : Str) : Disk :=
  ⟨disk.now.withTree (disk.now.tree.set name ⟨none,some []⟩),disk.trail ++
    [disk.now.withTree (disk.now.tree.set name ⟨none,none⟩),
      disk.now.withTree (disk.now.tree.set name ⟨none,some []⟩)]⟩

theorem mkdirs_apply {disk : Disk} (h : disk.now.tree.get name = none) :
    (do mkdirStore name; mkdirEntries name : Op Unit) disk = (.ok (),disk.opened name) := by
  simp only [mkdirStore,mkdirEntries,bind_apply,read_apply,h,Option.isSome_none,Bool.false_eq_true,
    raiseIf_neg not_false,change_apply,Snapshot.withTree_tree,Dict.get_set_self,Dict.set_set]
  simp [Disk.opened,Snapshot.withTree]

theorem createStore_opens (git : Git) {disk : Disk} (h : Opens lib disk.now.tree args purpose name) :
    createStore lib git args disk = fillStore git args purpose name (disk.opened name) := by
  unfold createStore
  rw [bind_ok (lift_builtin h.stripped disk),bind_ok (raiseIf_neg h.nonempty _ _),
    bind_ok (show lift _ _ = (.ok name,disk) by rw [lift_apply,h.digested])]
  have hdirs := mkdirs_apply h.unused
  rw [bind_apply] at hdirs ⊢
  rcases hstore : mkdirStore name disk with ⟨e | u,after⟩
  · rw [hstore] at hdirs
    cases hdirs
  · rw [hstore] at hdirs
    exact bind_ok hdirs

/-- Otherwise the call is refused before anything is made. -/
theorem createStore_refused (git : Git) (disk : Disk)
    (h : ∀ purpose name, ¬Opens lib disk.now.tree args purpose name) :
    ∃ e, e ≠ .calledProcess ∧ createStore lib git args disk = (.error e,disk) := by
  unfold createStore
  cases hpurpose : (args.purpose.orElse (.str [])).strip with
  | error e => exact ⟨.builtin e,by simp,bind_error (lift_builtin_error rfl disk)⟩
  | ok purpose =>
    rw [bind_ok (lift_builtin rfl disk)]
    by_cases hempty : purpose = []
    · exact ⟨_,by simp,bind_error (raiseIf_pos hempty _ _)⟩
    rw [bind_ok (raiseIf_neg hempty _ _)]
    cases hname : tokenDigest lib (.str args.token) with
    | error e =>
      obtain ⟨b,rfl⟩ := tokenDigest_error hname
      exact ⟨_,by simp,bind_error rfl⟩
    | ok name =>
      rw [bind_ok (show lift (.ok name) _ = (.ok name,disk) from rfl)]
      cases hget : disk.now.tree.get name with
      | none => exact absurd ⟨hpurpose,hempty,hname,hget⟩ (h purpose name)
      | some dir =>
        have hmkdir : mkdirStore name disk = (.error (.builtin .fileExistsError),disk) := by
          rw [mkdirStore,bind_ok (read_apply disk),bind_error (raiseIf_pos (by rw [hget]; rfl) _ _)]
        exact ⟨_,by simp,bind_error hmkdir⟩

section
variable {disk : Disk}

theorem opened_get (disk : Disk) (name : Str) :
    (disk.opened name).now.tree.get name = some ⟨none,some []⟩ := Dict.get_set_self _ _ _

/-- The snapshot in which `store.md` has this text. -/
def Disk.filled (disk : Disk) (name text : Str) : Snapshot :=
  disk.now.withTree (disk.now.tree.set name ⟨some text,some []⟩)

theorem opened_set (disk : Disk) (name text : Str) :
    (disk.opened name).now.withTree ((disk.opened name).now.tree.set name ⟨some text,some []⟩) =
      disk.filled name text := by
  simp [Disk.filled,Disk.opened,Snapshot.withTree,Dict.set_set]

theorem fillStore_author (git : Git) {e : Builtin}
    (h : (args.author.orElse (.str (lit "unknown"))).strip = .error e) :
    fillStore git args purpose name disk = (.error (.builtin e),disk) := by
  unfold fillStore
  exact bind_error (lift_builtin_error h disk)

theorem fillStore_unencodable (git : Git)
    (h : (args.author.orElse (.str (lit "unknown"))).strip = .ok author)
    (hencodable : ¬Utf8Encodable (storeText purpose author args.now)) :
    fillStore git args purpose name (disk.opened name) = (.error (.builtin .unicodeEncodeError),
      ⟨disk.filled name [],(disk.opened name).trail ++ [disk.filled name []]⟩) := by
  have hwrite : writeText name .storeMd (storeText purpose author args.now) (disk.opened name) = _ :=
    writeText_unencodable (opened_get disk name) rfl rfl hencodable
  rw [opened_set] at hwrite
  unfold fillStore
  rw [bind_ok (lift_builtin h _)]
  exact bind_error hwrite

/-- The rest of a creation whose text can be encoded is the commit. -/
theorem fillStore_spec (git : Git)
    (h : (args.author.orElse (.str (lit "unknown"))).strip = .ok author)
    (hencodable : Utf8Encodable (storeText purpose author args.now)) :
    fillStore git args purpose name (disk.opened name) = (do
      commit git (lit "create store: " ++ purpose)
      return ⟨args.token,storeMeta purpose author args.now,0⟩ : Op Created)
        ⟨disk.filled name (storeText purpose author args.now),(disk.opened name).trail ++
          [disk.filled name [],disk.filled name (storeText purpose author args.now)]⟩ := by
  have hwrite : writeText name .storeMd (storeText purpose author args.now) (disk.opened name) = _ :=
    writeText_ok (opened_get disk name) rfl rfl hencodable
  rw [opened_set,opened_set] at hwrite
  unfold fillStore
  rw [bind_ok (lift_builtin h _)]
  exact bind_ok hwrite

/-- A call that returns has made a store. -/
theorem createStore_ok {git : Git} {s t : Snapshot} {trail : List Snapshot} {created : Created}
    (h : createStore lib git args ⟨s,[]⟩ = (.ok created,⟨t,trail⟩)) :
    ∃ purpose author name, Opens lib s.tree args purpose name ∧
      (args.author.orElse (.str (lit "unknown"))).strip = .ok author ∧
      created = ⟨args.token,storeMeta purpose author args.now,0⟩ ∧
      t.tree = s.tree.set name ⟨some (storeText purpose author args.now),some []⟩ ∧
      t.head = files t.tree := by
  by_cases hopens : ∃ purpose name, Opens lib s.tree args purpose name
  · obtain ⟨purpose,name,hopens⟩ := hopens
    rw [createStore_opens git hopens] at h
    cases hauthor : (args.author.orElse (.str (lit "unknown"))).strip with
    | error e =>
      rw [fillStore_author git hauthor] at h
      cases (Prod.mk.inj h).1
    | ok author =>
      by_cases hencodable : Utf8Encodable (storeText purpose author args.now)
      · rw [fillStore_spec git hauthor hencodable,bind_apply] at h
        refine ⟨purpose,author,name,hopens,rfl,?_⟩
        rcases hcommit : commit git _ _ with ⟨e | u,after⟩
        · rw [hcommit] at h
          cases (Prod.mk.inj h).1
        · rw [hcommit] at h
          obtain ⟨hcreated,hdisk⟩ := Prod.mk.inj h
          obtain ⟨hnow,_⟩ := commit_ok hcommit
          rw [show after = ⟨t,trail⟩ from hdisk] at hnow
          subst hnow
          exact ⟨(Except.ok.inj hcreated).symm,rfl,rfl⟩
      · rw [fillStore_unencodable git hauthor hencodable] at h
        cases (Prod.mk.inj h).1
  · obtain ⟨e,_,hrefused⟩ := createStore_refused git ⟨s,[]⟩
      (fun purpose name hopens' => hopens ⟨purpose,name,hopens'⟩)
    rw [hrefused] at h
    cases (Prod.mk.inj h).1

/-- Whatever comes of the call, it changes nothing or makes a directory without entries. -/
theorem createStore_tree {git : Git} {s : Snapshot} {after : Disk} {result : Except Failure Created}
    (h : createStore lib git args ⟨s,[]⟩ = (result,after)) :
    after.now.tree = s.tree ∨ ∃ name storeMd, s.tree.get name = none ∧
      after.now.tree = s.tree.set name ⟨storeMd,some []⟩ := by
  by_cases hopens : ∃ purpose name, Opens lib s.tree args purpose name
  · obtain ⟨purpose,name,hopens⟩ := hopens
    rw [createStore_opens git hopens] at h
    cases hauthor : (args.author.orElse (.str (lit "unknown"))).strip with
    | error e =>
      rw [fillStore_author git hauthor] at h
      rw [← (Prod.mk.inj h).2]
      exact .inr ⟨name,none,hopens.unused,rfl⟩
    | ok author =>
      by_cases hencodable : Utf8Encodable (storeText purpose author args.now)
      · rw [fillStore_spec git hauthor hencodable,bind_apply] at h
        refine .inr ⟨name,some (storeText purpose author args.now),hopens.unused,?_⟩
        rcases hcommit : commit git _ _ with ⟨e | u,mid⟩
        · rw [hcommit] at h
          rw [← (Prod.mk.inj h).2,(commit_error hcommit).2.1]
          rfl
        · rw [hcommit] at h
          rw [← (Prod.mk.inj h).2]
          show mid.now.tree = _
          rw [(commit_ok hcommit).1]
          rfl
      · rw [fillStore_unencodable git hauthor hencodable] at h
        rw [← (Prod.mk.inj h).2]
        exact .inr ⟨name,some [],hopens.unused,rfl⟩
  · obtain ⟨e,_,hrefused⟩ := createStore_refused git ⟨s,[]⟩
      (fun purpose name hopens' => hopens ⟨purpose,name,hopens'⟩)
    rw [hrefused] at h
    rw [← (Prod.mk.inj h).2]
    exact .inl rfl

/-- A creation that raises has committed nothing. -/
theorem createStore_head {git : Git} {s : Snapshot} {after : Disk} {e : Failure}
    (h : createStore lib git args ⟨s,[]⟩ = (.error e,after)) : after.now.head = s.head := by
  by_cases hopens : ∃ purpose name, Opens lib s.tree args purpose name
  · obtain ⟨purpose,name,hopens⟩ := hopens
    rw [createStore_opens git hopens] at h
    cases hauthor : (args.author.orElse (.str (lit "unknown"))).strip with
    | error b =>
      rw [fillStore_author git hauthor] at h
      rw [← (Prod.mk.inj h).2]
      rfl
    | ok author =>
      by_cases hencodable : Utf8Encodable (storeText purpose author args.now)
      · rw [fillStore_spec git hauthor hencodable,bind_pure_eq_error] at h
        rw [(commit_error h).2.1]
        rfl
      · rw [fillStore_unencodable git hauthor hencodable] at h
        rw [← (Prod.mk.inj h).2]
        rfl
  · obtain ⟨_,_,hrefused⟩ := createStore_refused git ⟨s,[]⟩
      (fun purpose name hopens' => hopens ⟨purpose,name,hopens'⟩)
    rw [hrefused] at h
    rw [← (Prod.mk.inj h).2]

end
end HearthAI.Memory
