import HearthAI.Contracts.Handoff
import HearthAI.Core.Transition

/-! # Authenticity and crash safety of the handoff

Writers on any number of handles proceed file operation by file operation and may
stop anywhere, inside a file included. Somebody without a key rewrites the
directories in between, but can seal them only with seals already written. What
a reader accepts was recorded by one writer with the reader's run and key.
-/
namespace HearthAI.Contracts
open Text Hex LengthPrefix Transition

/-- The idealized primitives: injective, and of seals no two of which are nested,
as it is for outputs of one length. -/
structure Crypto.Ideal (crypto : Crypto) : Prop where
  sha256 : Function.Injective crypto.sha256
  hmacSha256 : ∀ k m k' m', crypto.hmacSha256 k m = crypto.hmacSha256 k' m' → k = k' ∧ m = m'
  unnested : ∀ k m k' m', crypto.hmacSha256 k m <+: crypto.hmacSha256 k' m' →
    crypto.hmacSha256 k m = crypto.hmacSha256 k' m'

/-- One call of `write_fetched` or `write_failure`. -/
structure Call where
  handoff : Handoff
  record : Handed

def Call.write (crypto : Crypto) (codecs : HandoffCodecs) (call : Call) :
    Except ContractError (List Operation) :=
  match call.record with
  | .failed code => call.handoff.writeFailure crypto codecs code
  | .fetched artifact body => call.handoff.writeFetched crypto codecs artifact body

/-- A call under way, with the operations it still has to do. -/
structure Writer where
  call : Call
  pending : List Operation

/-- A seal that a call started to write. -/
structure Sealing where
  call : Call
  bytes : Bytes

/-- Every handoff directory, everybody who writes to one, and the seals known so far. -/
structure Volume where
  directories : String → Directory
  writers : List Writer
  sealings : List Sealing

/-- The directory after an operation that wrote no more than `cut` bytes. -/
def Operation.apply (cut : ℕ) : Operation → Directory → Directory
  | .createDirAll, directory => directory
  | .remove name, directory => Function.update directory name (.error .notFound)
  | .put name bytes, directory => Function.update directory name (.ok (bytes.take cut))

/-- The file an operation writes whole, when nothing interrupts it. -/
def Operation.size : Operation → ℕ
  | .put _ bytes => bytes.length
  | _ => 0

def Operation.sealing (call : Call) : Operation → List Sealing
  | .put .seal bytes => [⟨call,bytes⟩]
  | _ => []

namespace Volume

def perform (volume : Volume) (call : Call) (operation : Operation) (cut : ℕ)
    (writers : List Writer) : Volume where
  directories := Function.update volume.directories call.handoff.directory
    (operation.apply cut (volume.directories call.handoff.directory))
  writers := writers
  sealings := operation.sealing call ++ volume.sealings

/-- Nothing has been sealed yet. -/
def Start (volume : Volume) : Prop :=
  volume.writers = [] ∧ volume.sealings = [] ∧
    ∀ directory, ∃ error, volume.directories directory .seal = .error error

/-- A seal file without the key: unreadable, or a known seal up to some byte. -/
def Known (volume : Volume) (contents : Directory) : Prop :=
  ∀ bytes, contents .seal = .ok bytes → ∃ sealing ∈ volume.sealings, bytes <+: sealing.bytes

/-- One step of somebody. A writer that takes no further step was killed. -/
inductive Step (crypto : Crypto) (codecs : HandoffCodecs) : Volume → Volume → Prop
  | begin (volume : Volume) (call : Call) (operations : List Operation)
      (h : call.write crypto codecs = .ok operations) :
      Step crypto codecs volume { volume with writers := ⟨call,operations⟩ :: volume.writers }
  | interrupted (volume : Volume) (before after : List Writer) (call : Call)
      (operation : Operation) (rest : List Operation) (cut : ℕ)
      (h : volume.writers = before ++ ⟨call,operation :: rest⟩ :: after) :
      Step crypto codecs volume (volume.perform call operation cut volume.writers)
  | finish (volume : Volume) (before after : List Writer) (call : Call)
      (operation : Operation) (rest : List Operation)
      (h : volume.writers = before ++ ⟨call,operation :: rest⟩ :: after) :
      Step crypto codecs volume
        (volume.perform call operation operation.size (before ++ ⟨call,rest⟩ :: after))
  | tamper (volume : Volume) (directory : String) (contents : Directory)
      (h : volume.Known contents) :
      Step crypto codecs volume { volume with
        directories := Function.update volume.directories directory contents }

end Volume

section
variable (crypto : Crypto) (codecs : HandoffCodecs)

/-- What a call that passed its checks seals. -/
def SealOf (call : Call) (bytes : Bytes) : Prop :=
  match call.record with
  | .failed code => ∃ stageBytes,
      codecs.stage.encode (.failed .fetch call.handoff.runId code) = .ok stageBytes ∧
        bytes = asBytes (call.handoff.seal crypto stageBytes.bytes [] none)
  | .fetched artifact body => ∃ stageBytes artifactBytes,
      codecs.stage.encode (.ok .fetch call.handoff.runId) = .ok stageBytes ∧
        codecs.artifact.encode artifact = .ok artifactBytes ∧
        artifact.bodySha256 = crypto.sha256Hex body ∧
        bytes = asBytes (call.handoff.seal crypto stageBytes.bytes artifactBytes.bytes
          (some artifact.bodySha256))

variable {crypto codecs}

theorem encode_ok {α : Type} {codec : Codec α} {value : α} {what : String} {encoded : Buffer}
    (h : encode codec value what = .ok encoded) : codec.encode value = .ok encoded := by
  unfold encode at h
  cases hencode : codec.encode value with
  | ok b => simpa [hencode,Except.mapError] using h
  | error e => simp [hencode,Except.mapError] at h

/-- What the checks of `write_fetched` establish, and the files it then writes. -/
theorem writeFetched_eq_ok {handoff : Handoff} {artifact : FetchArtifact} {body : Bytes} {operations : List Operation} :
    handoff.writeFetched crypto codecs artifact body = .ok operations ↔
      ∃ stageBytes artifactBytes,
        (artifact.runId = handoff.runId ∧ body.length = artifact.bodyBytes ∧
          crypto.sha256Hex body = artifact.bodySha256) ∧
        codecs.stage.encode (.ok .fetch handoff.runId) = .ok stageBytes ∧
        codecs.artifact.encode artifact = .ok artifactBytes ∧
        operations = [.createDirAll,.put .body body,.put .artifact artifactBytes.bytes,
          .put .stage stageBytes.bytes,.put .seal (asBytes (handoff.seal crypto stageBytes.bytes
            artifactBytes.bytes (some artifact.bodySha256)))] := by
  constructor
  · intro h
    obtain ⟨_,hrun,h⟩ := bind_eq_ok.mp h
    obtain ⟨_,hbody,h⟩ := bind_eq_ok.mp h
    obtain ⟨stageBytes,hstage,h⟩ := bind_eq_ok.mp h
    obtain ⟨artifactBytes,hartifact,h⟩ := bind_eq_ok.mp h
    rw [refuseIf_eq_ok,not_not] at hrun
    rw [refuseIf_eq_ok,not_or,not_not,not_not] at hbody
    cases h
    exact ⟨stageBytes,artifactBytes,⟨hrun,hbody⟩,encode_ok hstage,encode_ok hartifact,rfl⟩
  · rintro ⟨stageBytes,artifactBytes,⟨hrun,hlength,hdigest⟩,hstage,hartifact,rfl⟩
    refine bind_eq_ok.mpr ⟨(),refuseIf_eq_ok.mpr (not_not.mpr hrun),?_⟩
    refine bind_eq_ok.mpr ⟨(),refuseIf_eq_ok.mpr (by simp [hlength,hdigest]),?_⟩
    refine bind_eq_ok.mpr ⟨stageBytes,by rw [encode,hstage]; rfl,?_⟩
    exact bind_eq_ok.mpr ⟨artifactBytes,by rw [encode,hartifact]; rfl,rfl⟩

/-- Only the last operation of a call writes a seal, and it writes the call's own. -/
theorem sealOf_of_put {call : Call} {operations : List Operation} {bytes : Bytes}
    (h : call.write crypto codecs = .ok operations) (hput : .put .seal bytes ∈ operations) :
    SealOf crypto codecs call bytes := by
  unfold Call.write at h
  unfold SealOf
  cases hrecord : call.record with
  | failed code =>
    rw [hrecord] at h
    obtain ⟨stageBytes,hstage,hops⟩ := bind_eq_ok.mp h
    cases hops
    simp only [List.mem_cons,reduceCtorEq,Operation.put.injEq,true_and,false_and,false_or,
      List.not_mem_nil,or_false] at hput
    exact ⟨stageBytes,encode_ok hstage,hput⟩
  | fetched artifact body =>
    rw [hrecord] at h
    obtain ⟨stageBytes,artifactBytes,⟨_,_,hdigest⟩,hstage,hartifact,rfl⟩ := writeFetched_eq_ok.mp h
    simp only [List.mem_cons,reduceCtorEq,Operation.put.injEq,true_and,false_and,false_or,
      List.not_mem_nil,or_false] at hput
    exact ⟨stageBytes,artifactBytes,hstage,hartifact,hdigest.symm,hput⟩

variable (crypto codecs) in
/-- The invariant: every seal, written, pending or in a directory, is a call's own. -/
structure Volume.Genuine (volume : Volume) : Prop where
  sealings : ∀ sealing ∈ volume.sealings, SealOf crypto codecs sealing.call sealing.bytes
  writers : ∀ writer ∈ volume.writers, ∀ bytes, .put .seal bytes ∈ writer.pending →
    SealOf crypto codecs writer.call bytes
  directories : ∀ name, volume.Known (volume.directories name)

theorem Volume.Known.mono {v w : Volume} {contents : Directory} (h : v.Known contents)
    (hsub : ∀ sealing ∈ v.sealings, sealing ∈ w.sealings) : w.Known contents := by
  intro bytes hbytes
  obtain ⟨sealing,hmem,hlead⟩ := h bytes hbytes
  exact ⟨sealing,hsub sealing hmem,hlead⟩

/-- An operation leaves a seal that was known, or starts its own. -/
theorem known_apply {volume : Volume} {contents : Directory} (h : volume.Known contents)
    (call : Call) (operation : Operation) (cut : ℕ) (writers : List Writer) :
    (volume.perform call operation cut writers).Known (operation.apply cut contents) := by
  have hkeep : (volume.perform call operation cut writers).Known contents :=
    h.mono (fun _ hmem => List.mem_append_right _ hmem)
  cases operation with
  | createDirAll => exact hkeep
  | remove name =>
    intro bytes hbytes
    by_cases hname : name = .seal
    · subst hname
      simp [Operation.apply] at hbytes
    · rw [Operation.apply,Function.update_of_ne (Ne.symm hname)] at hbytes
      exact hkeep bytes hbytes
  | put name written =>
    intro bytes hbytes
    by_cases hname : name = .seal
    · subst hname
      simp only [Operation.apply,Function.update_self,Except.ok.injEq] at hbytes
      exact ⟨⟨call,written⟩,by simp [Volume.perform,Operation.sealing],
        hbytes ▸ List.take_prefix cut written⟩
    · rw [Operation.apply,Function.update_of_ne (Ne.symm hname)] at hbytes
      exact hkeep bytes hbytes

theorem genuine_perform {volume : Volume} (h : volume.Genuine crypto codecs) {call : Call}
    {operation : Operation} {writers : List Writer} (cut : ℕ)
    (hoperation : ∀ bytes, operation = .put .seal bytes → SealOf crypto codecs call bytes)
    (hwriters : ∀ writer ∈ writers, ∀ bytes, .put .seal bytes ∈ writer.pending →
      SealOf crypto codecs writer.call bytes) :
    (volume.perform call operation cut writers).Genuine crypto codecs where
  sealings := by
    intro sealing hmem
    rcases List.mem_append.mp hmem with hnew | hold
    · unfold Operation.sealing at hnew
      split at hnew
      · rw [List.mem_singleton.mp hnew]
        exact hoperation _ rfl
      · cases hnew
    · exact h.sealings sealing hold
  writers := hwriters
  directories := by
    intro name
    by_cases hname : name = call.handoff.directory
    · subst hname
      simp only [Volume.perform,Function.update_self]
      exact known_apply (h.directories _) call operation cut writers
    · have hother : (volume.perform call operation cut writers).directories name =
          volume.directories name := Function.update_of_ne hname _ _
      rw [hother]
      exact (h.directories name).mono (fun _ hmem => List.mem_append_right _ hmem)

theorem genuine_step {v w : Volume} (h : v.Genuine crypto codecs)
    (hstep : Volume.Step crypto codecs v w) : w.Genuine crypto codecs := by
  cases hstep with
  | begin call operations hwrite =>
    refine ⟨h.sealings,?_,h.directories⟩
    intro writer hmem bytes hput
    rcases List.mem_cons.mp hmem with rfl | hold
    · exact sealOf_of_put hwrite hput
    · exact h.writers writer hold bytes hput
  | interrupted before after call operation rest cut hwriter =>
    have hmem : (⟨call,operation :: rest⟩ : Writer) ∈ v.writers := by simp [hwriter]
    exact genuine_perform h cut (fun bytes hop => h.writers _ hmem bytes (by simp [hop])) h.writers
  | finish before after call operation rest hwriter =>
    have hmem : (⟨call,operation :: rest⟩ : Writer) ∈ v.writers := by simp [hwriter]
    refine genuine_perform h _ (fun bytes hop => h.writers _ hmem bytes (by simp [hop])) ?_
    intro writer hwriter' bytes hput
    rcases List.mem_append.mp hwriter' with hbefore | hrest
    · exact h.writers writer (by simp [hwriter,hbefore]) bytes hput
    rcases List.mem_cons.mp hrest with rfl | hafter
    · exact h.writers _ hmem bytes (List.mem_cons_of_mem _ hput)
    · exact h.writers writer (by simp [hwriter,hafter]) bytes hput
  | tamper directory contents hknown =>
    refine ⟨h.sealings,h.writers,?_⟩
    intro name
    by_cases hname : name = directory
    · subst hname
      simpa [Volume.Known] using hknown
    · simpa [Volume.Known,Function.update_of_ne hname] using h.directories name

theorem genuine_of_reachable {volume : Volume}
    (h : Reachable Volume.Start (Volume.Step crypto codecs) volume) :
    volume.Genuine crypto codecs := by
  refine h.invariant ?_ (fun _ _ hgenuine hstep => genuine_step hgenuine hstep)
  rintro s ⟨hwriters,hsealings,hdirectories⟩
  refine ⟨by simp [hsealings],by simp [hwriters],?_⟩
  intro name bytes hbytes
  obtain ⟨error,herror⟩ := hdirectories name
  rw [herror] at hbytes
  cases hbytes

/-- A recorded text that is a known seal up to some byte, and equal to an expected
one, fixes key and message: hexadecimal text survives the cut and the trimming. -/
theorem Crypto.Ideal.eq_of_recorded (h : crypto.Ideal) {bytes k m k' m' : Bytes}
    {recorded : String} (hlead : bytes <+:
      asBytes (String.ofList (hexEncode (crypto.hmacSha256 k' m'))))
    (htext : fromUtf8 bytes = some recorded)
    (hmatch : asBytes (trim recorded) =
      asBytes (String.ofList (hexEncode (crypto.hmacSha256 k m)))) : k = k' ∧ m = m' := by
  have hsingle := forall_mem_hexEncode (p := fun c => (String.utf8EncodeChar c).length = 1)
    (by decide) (crypto.hmacSha256 k' m')
  have hsolid := forall_mem_hexEncode (p := fun c => isWhitespace c = false)
    (by decide) (crypto.hmacSha256 k' m')
  obtain ⟨n,hn⟩ : ∃ n, bytes = (asBytes (String.ofList
      (hexEncode (crypto.hmacSha256 k' m')))).take n := ⟨_,List.prefix_iff_eq_take.mp hlead⟩
  have hrecorded : recorded = String.ofList ((hexEncode (crypto.hmacSha256 k' m')).take n) := by
    apply asBytes_injective
    rw [asBytes_of_fromUtf8 htext,hn,asBytes_take hsingle]
  have htrim : trim recorded = recorded := by
    refine trim_of_forall (fun c hc => hsolid c ?_)
    rw [hrecorded,String.toList_ofList] at hc
    exact List.mem_of_mem_take hc
  rw [htrim,hrecorded] at hmatch
  have hchars := congrArg String.toList (asBytes_injective hmatch)
  simp only [String.toList_ofList] at hchars
  have hnested : crypto.hmacSha256 k m <+: crypto.hmacSha256 k' m' :=
    isPrefix_of_hexEncode (hchars ▸ List.take_prefix _ _)
  exact h.hmacSha256 k m k' m' (h.unnested k m k' m' hnested)

theorem readToString_ok {directory : Directory} {name : FileName} {text : String}
    (h : readToString directory name = .ok text) :
    ∃ bytes, directory name = .ok bytes ∧ fromUtf8 bytes = some text := by
  unfold readToString readFile at h
  cases hfile : directory name with
  | error error => simp [hfile] at h
  | ok bytes =>
    simp only [hfile] at h
    split_ifs at h with hfits
    refine ⟨bytes,rfl,?_⟩
    dsimp only at h
    split at h
    · rename_i text' htext
      rw [htext,Except.ok.inj h]
    · cases h

/-- What a reader returns, from the parts it has authenticated. -/
def Yields (codecs : HandoffCodecs) (stageBytes artifactBytes body : Bytes) (handed : Handed) :
    Prop :=
  ∃ outcome, codecs.stage.decode stageBytes = .ok outcome ∧
    match handed with
    | .failed code => outcome.code = some code
    | .fetched artifact read => outcome.code = none ∧ artifactBytes ≠ [] ∧ read = body ∧
        codecs.artifact.decode artifactBytes = .ok artifact

/-- Everything a reader establishes before it returns. -/
theorem read_ok {handoff : Handoff} {directory : Directory} {handed : Handed}
    (h : handoff.read crypto codecs directory = .ok handed) :
    ∃ (stageBytes artifactBytes : Buffer) (body sealed : Bytes) (recorded : String),
      directory .seal = .ok sealed ∧ fromUtf8 sealed = some recorded ∧
      asBytes (trim recorded) = asBytes (handoff.seal crypto stageBytes.bytes artifactBytes.bytes
        (if artifactBytes.bytes = [] then none else some (crypto.sha256Hex body))) ∧
      Yields codecs stageBytes.bytes artifactBytes.bytes body handed := by
  unfold Handoff.read at h
  obtain ⟨stageBytes,_,h⟩ := bind_eq_ok.mp h
  obtain ⟨artifactFile,_,h⟩ := bind_eq_ok.mp h
  obtain ⟨artifactBytes,hartifactBytes⟩ :
      ∃ buffer : Buffer, (artifactFile.map Buffer.bytes).getD [] = buffer.bytes := by
    cases artifactFile with
    | none => exact ⟨⟨[],by simp⟩,rfl⟩
    | some buffer => exact ⟨buffer,rfl⟩
  rw [hartifactBytes] at h
  obtain ⟨recorded,hrecorded,h⟩ := bind_eq_ok.mp h
  obtain ⟨sealed,hsealed,htext⟩ := readToString_ok (mapError_eq_ok.mp hrecorded)
  obtain ⟨body,_,h⟩ := bind_eq_ok.mp h
  obtain ⟨_,hmatch,h⟩ := bind_eq_ok.mp h
  simp only [refuseIf_eq_ok,Bool.not_eq_true',Bool.not_eq_false,constantTimeEq_iff] at hmatch
  refine ⟨stageBytes,artifactBytes,body,sealed,recorded,hsealed,htext,hmatch,?_⟩
  obtain ⟨outcome,houtcome,h⟩ := bind_eq_ok.mp h
  refine ⟨outcome,mapError_eq_ok.mp houtcome,?_⟩
  obtain ⟨_,_,h⟩ := bind_eq_ok.mp h
  cases hcode : outcome.code with
  | some code =>
    rw [hcode] at h
    cases h
    rfl
  | none =>
    rw [hcode] at h
    obtain ⟨_,hnonempty,h⟩ := bind_eq_ok.mp h
    obtain ⟨artifact,hartifact,h⟩ := bind_eq_ok.mp h
    obtain ⟨_,_,h⟩ := bind_eq_ok.mp h
    obtain ⟨_,_,h⟩ := bind_eq_ok.mp h
    obtain ⟨_,_,h⟩ := bind_eq_ok.mp h
    obtain ⟨_,_,h⟩ := bind_eq_ok.mp h
    cases h
    exact ⟨rfl,refuseIf_eq_ok.mp hnonempty,rfl,mapError_eq_ok.mp hartifact⟩

theorem sealInput_injective {a b : Handoff}
    {stageBytes stageBytes' artifactBytes artifactBytes' : Buffer} {digest digest' : Option String}
    (h : a.sealInput stageBytes.bytes artifactBytes.bytes digest =
      b.sealInput stageBytes'.bytes artifactBytes'.bytes digest') :
    a.runId = b.runId ∧ stageBytes.bytes = stageBytes'.bytes ∧
      artifactBytes.bytes = artifactBytes'.bytes ∧ digest.getD "" = digest'.getD "" := by
  have hbounded : ∀ (c : Handoff) (s t : Buffer), ∀ part ∈
      [asBytes sealDomain,asBytes c.runId,s.bytes,t.bytes], part.length < 256 ^ 8 := by
    intro c s t part hpart
    have hc : (asBytes c.runId).length < 2 ^ 63 := c.fits
    have hs := s.fits
    have ht := t.fits
    simp only [List.mem_cons,List.not_mem_nil,or_false] at hpart
    rcases hpart with rfl | rfl | rfl | rfl
    · decide
    · omega
    · omega
    · omega
  obtain ⟨hparts,hdigest⟩ := frame_snoc_injective (by simp)
    (hbounded a stageBytes artifactBytes) (hbounded b stageBytes' artifactBytes') h
  simp only [List.cons.injEq,and_true,true_and] at hparts
  exact ⟨asBytes_injective hparts.1,hparts.2.1,hparts.2.2,asBytes_injective hdigest⟩

theorem Crypto.Ideal.sha256Hex_injective (h : crypto.Ideal) :
    Function.Injective crypto.sha256Hex := by
  intro a b hab
  have hchars := congrArg String.toList hab
  simp only [Crypto.sha256Hex,String.toList_ofList] at hchars
  exact h.sha256 (hexEncode_injective hchars)

/-- What a call sealed is what reading the sealed parts yields. -/
theorem SealOf.record_eq (ideal : crypto.Ideal) (hstage : codecs.stage.Invertible)
    (hartifact : codecs.artifact.Invertible) {call : Call} {handoff : Handoff} {handed : Handed}
    {stageBytes artifactBytes : Buffer} {body sealed : Bytes} {recorded : String}
    (hseal : SealOf crypto codecs call sealed) {bytes : Bytes} (hlead : bytes <+: sealed)
    (htext : fromUtf8 bytes = some recorded)
    (hmatch : asBytes (trim recorded) =
      asBytes (handoff.seal crypto stageBytes.bytes artifactBytes.bytes
        (if artifactBytes.bytes = [] then none else some (crypto.sha256Hex body))))
    (hyields : Yields codecs stageBytes.bytes artifactBytes.bytes body handed) :
    call.handoff.runId = handoff.runId ∧ call.handoff.key = handoff.key ∧
      call.record = handed := by
  obtain ⟨outcome,hdecode,hhanded⟩ := hyields
  have hkeyed : ∀ a b : HandoffKey, a.material = b.material → a = b := by
    rintro ⟨m,_⟩ ⟨m',_⟩ rfl
    rfl
  unfold SealOf at hseal
  cases hrecord : call.record with
  | failed code =>
    rw [hrecord] at hseal
    obtain ⟨stageBytes',hencode,rfl⟩ := hseal
    obtain ⟨hkey,hinput⟩ := ideal.eq_of_recorded hlead htext hmatch
    have hempty : handoff.sealInput stageBytes.bytes artifactBytes.bytes _ =
        call.handoff.sealInput stageBytes'.bytes (⟨[],by simp⟩ : Buffer).bytes none := hinput
    obtain ⟨hrun,hstageBytes,hartifactBytes,_⟩ := sealInput_injective hempty
    rw [hstageBytes,hstage _ _ hencode] at hdecode
    cases hdecode
    refine ⟨hrun.symm,hkeyed _ _ hkey.symm,?_⟩
    cases handed with
    | failed code' => simpa [StageOutcome.failed] using hhanded
    | fetched artifact read => simp [StageOutcome.failed] at hhanded
  | fetched artifact written =>
    rw [hrecord] at hseal
    obtain ⟨stageBytes',artifactBytes',hencode,hencodeArtifact,hdigest,rfl⟩ := hseal
    obtain ⟨hkey,hinput⟩ := ideal.eq_of_recorded hlead htext hmatch
    obtain ⟨hrun,hstageBytes,hartifactBytes,hbody⟩ := sealInput_injective hinput
    rw [hstageBytes,hstage _ _ hencode] at hdecode
    cases hdecode
    refine ⟨hrun.symm,hkeyed _ _ hkey.symm,?_⟩
    cases handed with
    | failed code => simp [StageOutcome.ok] at hhanded
    | fetched artifact' read =>
      obtain ⟨_,hnonempty,rfl,hdecodeArtifact⟩ := hhanded
      rw [hartifactBytes,hartifact _ _ hencodeArtifact] at hdecodeArtifact
      cases hdecodeArtifact
      simp only [if_neg hnonempty,Option.getD_some,hdigest] at hbody
      rw [ideal.sha256Hex_injective hbody]

/-- What a reader accepts is what one earlier call with the same run and key
recorded, and that call got as far as writing its seal. -/
theorem read_authentic (ideal : crypto.Ideal) (hstage : codecs.stage.Invertible)
    (hartifact : codecs.artifact.Invertible) {volume : Volume}
    (hreachable : Reachable Volume.Start (Volume.Step crypto codecs) volume) (handoff : Handoff)
    {handed : Handed}
    (h : handoff.read crypto codecs (volume.directories handoff.directory) = .ok handed) :
    ∃ sealing ∈ volume.sealings, sealing.call.handoff.runId = handoff.runId ∧
      sealing.call.handoff.key = handoff.key ∧ sealing.call.record = handed := by
  have hgenuine := genuine_of_reachable hreachable
  obtain ⟨stageBytes,artifactBytes,body,sealed,recorded,hsealed,htext,hmatch,hyields⟩ := read_ok h
  obtain ⟨sealing,hmem,hlead⟩ := hgenuine.directories handoff.directory sealed hsealed
  exact ⟨sealing,hmem,(hgenuine.sealings sealing hmem).record_eq ideal hstage hartifact hlead
    htext hmatch hyields⟩

/-- A call that nothing interrupts does all of its operations. -/
theorem reachable_write {volume : Volume} {call : Call} {operations : List Operation}
    {others : List Writer}
    (hreachable : Reachable Volume.Start (Volume.Step crypto codecs) volume)
    (hwriters : volume.writers = ⟨call,operations⟩ :: others) :
    ∃ after, Reachable Volume.Start (Volume.Step crypto codecs) after ∧
      after.directories call.handoff.directory = operations.foldl
        (fun directory operation => operation.apply operation.size directory)
        (volume.directories call.handoff.directory) := by
  induction operations generalizing volume with
  | nil => exact ⟨volume,hreachable,rfl⟩
  | cons operation rest ih =>
    have hstep : Volume.Step crypto codecs volume _ :=
      .finish volume [] others call operation rest hwriters
    obtain ⟨after,hafter,hdirectory⟩ := ih (hreachable.step hstep) rfl
    refine ⟨after,hafter,?_⟩
    rw [hdirectory,List.foldl_cons]
    simp only [Volume.perform,Function.update_self]

theorem len_seal (handoff : Handoff) (stageBytes artifactBytes : Bytes) (digest : Option String) :
    len (handoff.seal crypto stageBytes artifactBytes digest) = 2 * (crypto.hmacSha256
      handoff.key.material (handoff.sealInput stageBytes artifactBytes digest)).length := by
  rw [Handoff.seal,len_of_single (forall_mem_hexEncode (by decide) _),hexEncode_length]

theorem trim_seal (handoff : Handoff) (stageBytes artifactBytes : Bytes) (digest : Option String) :
    trim (handoff.seal crypto stageBytes artifactBytes digest) =
      handoff.seal crypto stageBytes artifactBytes digest := by
  refine trim_of_forall ?_
  rw [Handoff.seal,String.toList_ofList]
  exact forall_mem_hexEncode (by decide) _

/-- A failure that was recorded without interruption is what a reader gets. -/
theorem read_writeFailure (hstage : codecs.stage.Invertible) {handoff : Handoff} {code : ErrorCode}
    {stageBytes : Buffer}
    (hencode : codecs.stage.encode (.failed .fetch handoff.runId code) = .ok stageBytes)
    (hfits : len (handoff.seal crypto stageBytes.bytes [] none) < 2 ^ 63) (directory : Directory) :
    ∃ operations, handoff.writeFailure crypto codecs code = .ok operations ∧
      handoff.read crypto codecs (operations.foldl
        (fun directory operation => operation.apply operation.size directory) directory) =
          .ok (.failed code) := by
  refine ⟨_,bind_eq_ok.mpr ⟨stageBytes,by rw [encode,hencode]; rfl,rfl⟩,?_⟩
  simp only [List.foldl_cons,List.foldl_nil,Operation.apply,Operation.size,List.take_length]
  unfold Handoff.read
  refine bind_eq_ok.mpr ⟨stageBytes,?_,?_⟩
  · rw [get,readFile_ok (by simp [Function.update]) stageBytes.fits]
    rfl
  refine bind_eq_ok.mpr ⟨none,?_,?_⟩
  · simp [getOptional,readFile,Function.update,IoError.notFound]
  refine bind_eq_ok.mpr ⟨handoff.seal crypto stageBytes.bytes [] none,?_,?_⟩
  · rw [readToString,readFile_ok (by simp [Function.update]) hfits]
    simp only [fromUtf8_asBytes,Except.mapError]
  refine bind_eq_ok.mpr ⟨[],rfl,?_⟩
  refine bind_eq_ok.mpr ⟨(),?_,?_⟩
  · rw [refuseIf_eq_ok,trim_seal,Bool.not_eq_true',Bool.not_eq_false,constantTimeEq_iff]
    rfl
  refine bind_eq_ok.mpr ⟨_,by rw [hstage _ _ hencode]; rfl,?_⟩
  exact bind_eq_ok.mpr ⟨(),by simp [StageOutcome.check,StageOutcome.failed],rfl⟩

/-- The reader's checks on a directory that holds a sealed response. -/
theorem read_sealed {handoff : Handoff} {directory : Directory} {stageBytes artifactBytes body : Buffer}
    {artifact : FetchArtifact}
    (hfits : len (handoff.seal crypto stageBytes.bytes artifactBytes.bytes
      (some (crypto.sha256Hex body.bytes))) < 2 ^ 63)
    (hstage : directory .stage = .ok stageBytes.bytes)
    (hartifact : directory .artifact = .ok artifactBytes.bytes)
    (hbody : directory .body = .ok body.bytes)
    (hseal : directory .seal = .ok (asBytes (handoff.seal crypto stageBytes.bytes
      artifactBytes.bytes (some (crypto.sha256Hex body.bytes)))))
    (hnonempty : artifactBytes.bytes ≠ [])
    (houtcome : codecs.stage.decode stageBytes.bytes = .ok (.ok .fetch handoff.runId))
    (hdecode : codecs.artifact.decode artifactBytes.bytes = .ok artifact)
    (hversion : artifact.artifactVersion = artifactVersion)
    (hrun : artifact.runId = handoff.runId) (hlength : body.bytes.length = artifact.bodyBytes)
    (hdigest : crypto.sha256Hex body.bytes = artifact.bodySha256) :
    handoff.read crypto codecs directory = .ok (.fetched artifact body.bytes) := by
  have hrefuse : ∀ {p : Prop} [Decidable p] {text : String}, ¬p → refuseIf p text = .ok () :=
    fun hp => refuseIf_eq_ok.mpr hp
  unfold Handoff.read
  refine bind_eq_ok.mpr ⟨stageBytes,by rw [get,readFile_ok hstage stageBytes.fits]; rfl,?_⟩
  refine bind_eq_ok.mpr ⟨some artifactBytes,
    by rw [getOptional,readFile_ok hartifact artifactBytes.fits],?_⟩
  refine bind_eq_ok.mpr ⟨handoff.seal crypto stageBytes.bytes artifactBytes.bytes
    (some (crypto.sha256Hex body.bytes)),?_,?_⟩
  · rw [readToString,readFile_ok hseal hfits]
    simp only [fromUtf8_asBytes,Except.mapError]
  simp only [Option.map_some,Option.getD_some,if_neg hnonempty]
  refine bind_eq_ok.mpr ⟨body.bytes,?_,?_⟩
  · rw [readBody,if_neg hnonempty,get,readFile_ok hbody body.fits]
    rfl
  refine bind_eq_ok.mpr ⟨(),hrefuse ?_,?_⟩
  · rw [trim_seal,Bool.not_eq_true',Bool.not_eq_false,constantTimeEq_iff]
  refine bind_eq_ok.mpr ⟨_,by rw [houtcome]; rfl,?_⟩
  refine bind_eq_ok.mpr ⟨(),by simp [StageOutcome.check,StageOutcome.ok],?_⟩
  refine bind_eq_ok.mpr ⟨(),hrefuse hnonempty,?_⟩
  refine bind_eq_ok.mpr ⟨artifact,by rw [hdecode]; rfl,?_⟩
  refine bind_eq_ok.mpr ⟨(),hrefuse (not_not.mpr hversion),?_⟩
  refine bind_eq_ok.mpr ⟨(),hrefuse (not_not.mpr hrun),?_⟩
  refine bind_eq_ok.mpr ⟨(),hrefuse (not_not.mpr hlength),?_⟩
  exact bind_eq_ok.mpr ⟨(),hrefuse (by rw [hdigest]; exact not_not.mpr rfl),rfl⟩

end

/-- Every byte behind a mark, and an end mark: no two of these are nested. -/
def marked (bytes : Bytes) : Bytes := bytes.flatMap (fun b => [1,b]) ++ [0]

theorem marked_length (bytes : Bytes) : (marked bytes).length = 2 * bytes.length + 1 := by
  induction bytes with
  | nil => rfl
  | cons b bytes ih => simp only [marked,List.flatMap_cons,List.append_assoc,List.length_append,
      List.length_cons,List.length_nil] at ih ⊢; omega

theorem isPrefix_of_marked {a b x y : Bytes} (h : marked a ++ x <+: marked b ++ y) :
    a = b ∧ x <+: y := by
  induction a generalizing b with
  | nil =>
    cases b with
    | nil => exact ⟨rfl,by simpa [marked] using h⟩
    | cons c b => simp [marked] at h
  | cons d a ih =>
    cases b with
    | nil => simp [marked] at h
    | cons c b =>
      have hcons : d = c ∧ marked a ++ x <+: marked b ++ y := by simpa [marked] using h
      obtain ⟨rfl,hrest⟩ := ih hcons.2
      exact ⟨by rw [hcons.1],hrest⟩

/-- Primitives that keep everything they are given. -/
def keepingCrypto : Crypto := ⟨id,fun key message => marked key ++ marked message⟩

theorem keepingCrypto_ideal : keepingCrypto.Ideal := by
  have hnested : ∀ k m k' m', keepingCrypto.hmacSha256 k m <+: keepingCrypto.hmacSha256 k' m' →
      k = k' ∧ m = m' := by
    intro k m k' m' h
    obtain ⟨rfl,hm⟩ := isPrefix_of_marked h
    have hm' : marked m ++ [] <+: marked m' ++ [] := by simpa using hm
    exact ⟨rfl,(isPrefix_of_marked hm').1⟩
  refine ⟨fun _ _ h => h,?_,?_⟩
  · intro k m k' m' h
    exact hnested k m k' m' (h ▸ List.prefix_rfl)
  · intro k m k' m' h
    obtain ⟨rfl,rfl⟩ := hnested k m k' m' h
    rfl

/-- The codec of one value, and of nothing else. -/
def codecOf {α : Type} [DecidableEq α] (value : α) (text : String)
    (fits : (asBytes text).length < 2 ^ 63) : Codec α where
  encode := fun a => if a = value then .ok ⟨asBytes text,fits⟩ else .error "not this value"
  decode := fun bytes => if bytes = asBytes text then .ok value else .error "not this text"

theorem codecOf_encode {α : Type} [DecidableEq α] (value : α) (text : String)
    (fits : (asBytes text).length < 2 ^ 63) :
    (codecOf value text fits).encode value = .ok ⟨asBytes text,fits⟩ := if_pos rfl

theorem codecOf_invertible {α : Type} [DecidableEq α] (value : α) (text : String)
    (fits : (asBytes text).length < 2 ^ 63) : (codecOf value text fits).Invertible := by
  intro a encoded h
  simp only [codecOf] at h ⊢
  split_ifs at h with ha
  rw [← Except.ok.inj h,if_pos rfl,ha]

def letterArtifact : FetchArtifact where
  artifactVersion := artifactVersion
  runId := "run-1"
  sourceId := "source-1"
  requestedUrlSha256 := keepingCrypto.sha256Hex (asBytes "http://example.com/")
  finalUrl := "http://example.com/"
  httpStatus := 200
  contentType := some "text/plain"
  contentEncoding := none
  redirects := 0
  retrievedAt := "2026-09-12T12:00:00Z"
  format := .text
  bodyBytes := 2
  bodySha256 := keepingCrypto.sha256Hex (asBytes "ok")
  policyProfile := "production"

theorem stage_fits : (asBytes "stage").length < 2 ^ 63 := by decide

theorem artifact_fits : (asBytes "artifact").length < 2 ^ 63 := by decide

def letterCodecs : HandoffCodecs where
  stage := codecOf (.ok .fetch "run-1") "stage" stage_fits
  artifact := codecOf letterArtifact "artifact" artifact_fits

/-- The handle of a run on a directory. -/
def letterHandoff (directory : String) : Handoff :=
  ⟨directory,"run-1",⟨List.replicate 32 7,by decide⟩,by decide⟩

def letterCall : Call := ⟨letterHandoff "handoff",.fetched letterArtifact (asBytes "ok")⟩

theorem len_seal_keeping {handoff : Handoff} {stageBytes artifactBytes : Bytes} {digest : Option String}
    (hrun : len handoff.runId < 1000) (hkey : handoff.key.material.length < 1000)
    (hstage : stageBytes.length < 1000) (hartifact : artifactBytes.length < 1000)
    (hdigest : len (digest.getD "") < 1000) :
    len (handoff.seal keepingCrypto stageBytes artifactBytes digest) < 2 ^ 63 := by
  have hdomain : (asBytes sealDomain).length = 28 := by decide
  rw [len] at hrun hdigest
  rw [len_seal]
  simp only [keepingCrypto,Handoff.sealInput,frame_cons,frame_nil,framePart,List.length_append,
    marked_length,bigEndian_length,hdomain,List.length_nil]
  omega

theorem read_letter {stageBytes artifactBytes : Buffer} {directory : Directory}
    (hstage : letterCodecs.stage.encode (.ok .fetch "run-1") = .ok stageBytes)
    (hartifact : letterCodecs.artifact.encode letterArtifact = .ok artifactBytes)
    (hstageFile : directory .stage = .ok stageBytes.bytes)
    (hartifactFile : directory .artifact = .ok artifactBytes.bytes)
    (hbodyFile : directory .body = .ok (asBytes "ok"))
    (hsealFile : directory .seal = .ok (asBytes ((letterHandoff "copy").seal keepingCrypto
      stageBytes.bytes artifactBytes.bytes (some letterArtifact.bodySha256)))) :
    (letterHandoff "copy").read keepingCrypto letterCodecs directory =
      .ok (.fetched letterArtifact (asBytes "ok")) := by
  obtain rfl := Except.ok.inj ((codecOf_encode _ _ _).symm.trans hstage)
  obtain rfl := Except.ok.inj ((codecOf_encode _ _ _).symm.trans hartifact)
  have hbody : directory .body = .ok (⟨asBytes "ok",by decide⟩ : Buffer).bytes := hbodyFile
  refine read_sealed ?_ hstageFile hartifactFile hbody hsealFile (by decide)
    (codecOf_invertible _ _ _ _ _ hstage) (codecOf_invertible _ _ _ _ _ hartifact) rfl rfl rfl rfl
  exact len_seal_keeping (by decide) (by decide) (by decide) (by decide) (by decide)

/-- A first attempt is torn in the body, the directory is emptied, and a second attempt completes.
What it sealed is then read from a directory it was copied to. -/
theorem read_authentic_copied : ∃ volume,
    Reachable Volume.Start (Volume.Step keepingCrypto letterCodecs) volume ∧
      (letterHandoff "copy").read keepingCrypto letterCodecs (volume.directories "copy") =
        .ok (.fetched letterArtifact (asBytes "ok")) ∧
      ∃ sealing ∈ volume.sealings, sealing.call.handoff.runId = "run-1" ∧
        sealing.call.handoff.key = (letterHandoff "copy").key ∧
        sealing.call.record = .fetched letterArtifact (asBytes "ok") := by
  have hstage : letterCodecs.stage.Invertible := codecOf_invertible _ _ _
  have hartifact : letterCodecs.artifact.Invertible := codecOf_invertible _ _ _
  obtain ⟨operations,hwrite⟩ :
      ∃ operations, letterCall.write keepingCrypto letterCodecs = .ok operations :=
    ⟨_,writeFetched_eq_ok.mpr
      ⟨_,_,⟨rfl,by decide,rfl⟩,codecOf_encode _ _ _,codecOf_encode _ _ _,rfl⟩⟩
  obtain ⟨stageBytes,artifactBytes,_,hstageBytes,hartifactBytes,rfl⟩ := writeFetched_eq_ok.mp hwrite
  let empty : Volume := ⟨fun _ _ => .error .notFound,[],[]⟩
  have hempty : Reachable Volume.Start (Volume.Step keepingCrypto letterCodecs) empty :=
    .start ⟨rfl,rfl,fun _ => ⟨_,rfl⟩⟩
  have hbegun := hempty.step (.begin empty letterCall _ hwrite)
  have hcreated := hbegun.step (.finish _ [] [] letterCall _ _ rfl)
  have htorn := hcreated.step (.interrupted _ [] [] letterCall _ _ 1 rfl)
  have hemptied := htorn.step (.tamper _ "handoff" (fun _ => .error .notFound) nofun)
  obtain ⟨written,hwritten,hdirectory⟩ :=
    reachable_write (hemptied.step (.begin _ letterCall _ hwrite)) rfl
  have hknown := (genuine_of_reachable hwritten).directories "handoff"
  have hcopied := hwritten.step (.tamper written "copy" (written.directories "handoff") hknown)
  have hread : (letterHandoff "copy").read keepingCrypto letterCodecs
      (written.directories "handoff") = .ok (.fetched letterArtifact (asBytes "ok")) := by
    rw [show written.directories "handoff" = _ from hdirectory]
    refine read_letter hstageBytes hartifactBytes ?_ ?_ ?_ ?_
    all_goals simp [Operation.apply,Operation.size,Function.update]
    rfl
  refine ⟨_,hcopied,?_,?_⟩
  · simpa using hread
  · exact read_authentic keepingCrypto_ideal hstage hartifact hcopied (letterHandoff "copy")
      (by simpa [letterHandoff] using hread)

end HearthAI.Contracts
