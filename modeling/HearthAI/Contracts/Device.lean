import HearthAI.Contracts.LastWrite
import HearthAI.Core.Effect

/-! # Handoff operations that the file system may fail

Every operation asks the device how it goes. A file that could not be written may hold any
number of its bytes. The error of a removal is dropped, so that a file may outlive it.
-/
namespace HearthAI.Contracts
open Text Hex Effect

/-- How an operation of the file system goes. -/
inductive Fate
  | done
  /-- An error before anything has happened. -/
  | refused (text : String)
  /-- An error after so many bytes. -/
  | cut (bytes : ℕ) (text : String)
  deriving DecidableEq

/-- A directory, and how the operations on it will go. -/
structure Device where
  directory : Directory
  fates : ℕ → Fate
  /-- The operations so far. -/
  used : ℕ

def Device.after (device : Device) (directory : Directory) : Device :=
  { device with directory := directory, used := device.used + 1 }

abbrev Filing := Effect ContractError Device

/-- `fs::write` over a file with these contents. -/
def Fate.write (contents : Except IoError Bytes) (bytes : Bytes) : Fate → Except IoError Bytes
  | .done => .ok bytes
  | .refused _ => contents
  | .cut n _ => .ok (bytes.take n)

/-- How much of these bytes gets through. -/
def Fate.part (bytes : Bytes) : Fate → Bytes
  | .done => bytes
  | .refused _ => []
  | .cut n _ => bytes.take n

def Fate.result (what : String) : Fate → Except ContractError Unit
  | .done => .ok ()
  | .refused text => .error ⟨s!"{what}: {text}"⟩
  | .cut _ text => .error ⟨s!"{what}: {text}"⟩

/-- `fs::create_dir_all`, `fs::remove_file(..).ok()` and `put`. -/
def Operation.attempt : Operation → Filing Unit
  | .createDirAll => fun device =>
    ((device.fates device.used).result "handoff directory",device.after device.directory)
  | .remove name => fun device =>
    match device.fates device.used with
    | .done => (.ok (),device.after (Function.update device.directory name (.error .notFound)))
    | _ => (.ok (),device.after device.directory)
  | .put name bytes => fun device =>
    let fate := device.fates device.used
    (fate.result name.text,
      device.after (Function.update device.directory name (fate.write (device.directory name) bytes)))

def attemptAll : List Operation → Filing Unit
  | [] => return ()
  | operation :: rest => do
    operation.attempt
    attemptAll rest

/-- A call of `write_fetched` or `write_failure` on a device. -/
def Call.attempt (crypto : Crypto) (codecs : HandoffCodecs) (call : Call) : Filing Unit := do
  let operations ← Effect.lift (call.write crypto codecs)
  attemptAll operations

section
variable {crypto : Crypto} {codecs : HandoffCodecs} {device after : Device}

theorem Fate.result_ok {what : String} {fate : Fate} (h : fate.result what = .ok ()) :
    fate = .done := by
  cases fate with
  | done => rfl
  | refused text => cases h
  | cut n text => cases h

/-- What the file system says when an operation goes wrong. -/
def Fate.text : Fate → Option String
  | .done => none
  | .refused text => some text
  | .cut _ text => some text

/-- What an error of the file system is reported about. -/
def operationNames : List String :=
  "handoff directory" :: [FileName.body,.artifact,.stage,.seal].map FileName.text

/-- An error of an operation that went wrong on this device. -/
def Device.Reported (device : Device) (error : ContractError) : Prop :=
  ∃ n, ∃ what ∈ operationNames, ∃ text, (device.fates n).text = some text ∧
    error = ⟨s!"{what}: {text}"⟩

theorem Fate.result_error {what : String} {fate : Fate} {error : ContractError}
    (h : fate.result what = .error error) :
    ∃ text, fate.text = some text ∧ error = ⟨s!"{what}: {text}"⟩ := by
  cases fate with
  | done => cases h
  | refused text => exact ⟨text,rfl,(Except.error.inj h).symm⟩
  | cut n text => exact ⟨text,rfl,(Except.error.inj h).symm⟩

theorem attempt_fates (operation : Operation) (device : Device) :
    (operation.attempt device).2.fates = device.fates := by
  cases operation with
  | createDirAll => rfl
  | put name bytes => rfl
  | remove name =>
    simp only [Operation.attempt]
    split <;> rfl

theorem attempt_error {operation : Operation} {error : ContractError}
    (h : operation.attempt device = (.error error,after)) : device.Reported error := by
  cases operation with
  | createDirAll =>
    obtain ⟨text,htext,rfl⟩ := Fate.result_error (Prod.mk.inj h).1
    exact ⟨_,_,by simp [operationNames],text,htext,rfl⟩
  | put name bytes =>
    obtain ⟨text,htext,rfl⟩ := Fate.result_error (Prod.mk.inj h).1
    exact ⟨_,name.text,by cases name <;> simp [operationNames],text,htext,rfl⟩
  | remove name =>
    simp only [Operation.attempt] at h
    split at h
    · cases (Prod.mk.inj h).1
    · cases (Prod.mk.inj h).1

/-- The file an operation is about. -/
def Operation.target : Operation → Option FileName
  | .createDirAll => none
  | .remove name => some name
  | .put name _ => some name

/-- However it goes, an operation touches no file but its own. -/
theorem attempt_frame {operation : Operation} {name : FileName} (h : operation.target ≠ some name)
    (device : Device) :
    (operation.attempt device).2.directory name = device.directory name := by
  cases operation with
  | createDirAll => rfl
  | remove other =>
    have hother : name ≠ other := fun heq => h (congrArg some heq.symm)
    simp only [Operation.attempt]
    split
    · exact Function.update_of_ne hother _ _
    · rfl
  | put other bytes =>
    have hother : name ≠ other := fun heq => h (congrArg some heq.symm)
    exact Function.update_of_ne hother _ _

theorem attempt_put_ok {name : FileName} {bytes : Bytes}
    (h : (Operation.put name bytes).attempt device = (.ok (),after)) :
    after.directory name = .ok bytes := by
  obtain ⟨hresult,rfl⟩ := Prod.mk.inj h
  dsimp only [Device.after]
  rw [Fate.result_ok hresult,Function.update_self]
  rfl

theorem attemptAll_cons (operation : Operation) (rest : List Operation) (device : Device) :
    attemptAll (operation :: rest) device =
      match operation.attempt device with
      | (.ok _,mid) => attemptAll rest mid
      | (.error e,mid) => (.error e,mid) := by
  rw [attemptAll,bind_apply]
  rcases operation.attempt device with ⟨e | _,mid⟩
  · rfl
  · rfl

theorem attemptAll_frame {operations : List Operation} {name : FileName}
    (h : ∀ operation ∈ operations, operation.target ≠ some name) (device : Device) :
    (attemptAll operations device).2.directory name = device.directory name := by
  induction operations generalizing device with
  | nil => rfl
  | cons operation rest ih =>
    obtain ⟨hfirst,hrest⟩ := List.forall_mem_cons.mp h
    have hframe := attempt_frame hfirst device
    rw [attemptAll_cons]
    rcases hattempt : operation.attempt device with ⟨e | _,mid⟩
    · rwa [hattempt] at hframe
    · rw [hattempt] at hframe
      exact (ih hrest mid).trans hframe

theorem attemptAll_fates (operations : List Operation) (device : Device) :
    (attemptAll operations device).2.fates = device.fates := by
  induction operations generalizing device with
  | nil => rfl
  | cons operation rest ih =>
    have hfates := attempt_fates operation device
    rw [attemptAll_cons]
    rcases hattempt : operation.attempt device with ⟨e | _,mid⟩
    · rwa [hattempt] at hfates
    · rw [hattempt] at hfates
      exact (ih mid).trans hfates

theorem attemptAll_error {operations : List Operation} {error : ContractError}
    (h : attemptAll operations device = (.error error,after)) : device.Reported error := by
  induction operations generalizing device with
  | nil => cases h
  | cons operation rest ih =>
    rw [attemptAll_cons] at h
    rcases hattempt : operation.attempt device with ⟨e | _,mid⟩
    · rw [hattempt] at h
      obtain ⟨he,rfl⟩ := Prod.mk.inj h
      rw [Except.error.inj he] at hattempt
      exact attempt_error hattempt
    · rw [hattempt] at h
      have hfates := attempt_fates operation device
      rw [hattempt] at hfates
      obtain ⟨n,what,hwhat,text,htext,herror⟩ := ih h
      exact ⟨n,what,hwhat,text,by rwa [← hfates],herror⟩

/-- Where nothing goes wrong, every list of operations gets to its end. -/
theorem attemptAll_done (operations : List Operation) {device : Device}
    (h : ∀ n, device.fates n = .done) : ∃ after, attemptAll operations device = (.ok (),after) := by
  rcases hattempt : attemptAll operations device with ⟨error | _,after⟩
  · obtain ⟨n,_,_,text,htext,_⟩ := attemptAll_error hattempt
    rw [h n] at htext
    cases htext
  · exact ⟨after,rfl⟩

/-- A file holds what was last put into it. -/
theorem attemptAll_put (before : List Operation) {rest : List Operation} {name : FileName} {bytes : Bytes}
    (h : attemptAll (before ++ .put name bytes :: rest) device = (.ok (),after))
    (hrest : ∀ operation ∈ rest, operation.target ≠ some name) :
    after.directory name = .ok bytes := by
  induction before generalizing device with
  | nil =>
    rw [List.nil_append,attemptAll_cons] at h
    rcases hattempt : (Operation.put name bytes).attempt device with ⟨e | _,mid⟩
    · rw [hattempt] at h
      cases h
    · rw [hattempt] at h
      have hframe := attemptAll_frame hrest mid
      rw [show attemptAll rest mid = _ from h] at hframe
      exact hframe.trans (attempt_put_ok hattempt)
  | cons operation before ih =>
    rw [List.cons_append,attemptAll_cons] at h
    rcases hattempt : operation.attempt device with ⟨e | _,mid⟩
    · rw [hattempt] at h
      cases h
    · rw [hattempt] at h
      exact ih h

theorem callAttempt_ok {call : Call} (h : call.attempt crypto codecs device = (.ok (),after)) :
    ∃ operations, call.write crypto codecs = .ok operations ∧
      attemptAll operations device = (.ok (),after) := by
  unfold Call.attempt at h
  cases hwrite : call.write crypto codecs with
  | error e =>
    rw [hwrite] at h
    cases h
  | ok operations => exact ⟨operations,rfl,by rwa [hwrite] at h⟩

theorem callAttempt_fates (crypto : Crypto) (codecs : HandoffCodecs) (call : Call)
    (device : Device) :
    (call.attempt crypto codecs device).2.fates = device.fates := by
  unfold Call.attempt
  cases hwrite : call.write crypto codecs with
  | error e => rfl
  | ok operations => exact attemptAll_fates operations device

/-- The files of a response that was stored. -/
theorem stored_fetched {handoff : Handoff} {artifact : FetchArtifact} {body : Bytes}
    (h : (⟨handoff,.fetched artifact body⟩ : Call).attempt crypto codecs device = (.ok (),after)) :
    ∃ stageBytes artifactBytes,
      (artifact.runId = handoff.runId ∧ body.length = artifact.bodyBytes ∧
        crypto.sha256Hex body = artifact.bodySha256) ∧
      codecs.stage.encode (.ok .fetch handoff.runId) = .ok stageBytes ∧
      codecs.artifact.encode artifact = .ok artifactBytes ∧
      after.directory .stage = .ok stageBytes.bytes ∧
      after.directory .artifact = .ok artifactBytes.bytes ∧ after.directory .body = .ok body ∧
      after.directory .seal = .ok (asBytes (handoff.seal crypto stageBytes.bytes
        artifactBytes.bytes (some artifact.bodySha256))) := by
  obtain ⟨operations,hwrite,hattempt⟩ := callAttempt_ok h
  obtain ⟨stageBytes,artifactBytes,hchecked,hstage,hartifact,rfl⟩ := writeFetched_eq_ok.mp
    (show handoff.writeFetched crypto codecs artifact body = .ok operations from hwrite)
  refine ⟨stageBytes,artifactBytes,hchecked,hstage,hartifact,?_,?_,?_,?_⟩
  · exact attemptAll_put [.createDirAll,.put .body _,.put .artifact _] hattempt
      (by simp [Operation.target])
  · exact attemptAll_put [.createDirAll,.put .body _] hattempt
      (by simp [Operation.target])
  · exact attemptAll_put [.createDirAll] hattempt (by simp [Operation.target])
  · exact attemptAll_put [.createDirAll,.put .body _,.put .artifact _,.put .stage _]
      hattempt (by simp)

end
end HearthAI.Contracts
