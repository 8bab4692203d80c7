import HearthAI.Inspect.Detect

/-! # Loading a rule bundle

The directory an operator mounted and the manifest in it name the policy. Reading the
file system, compiling rules and parsing the manifest are parameters.
-/
namespace HearthAI.Inspect
open Text Contracts

/-- The manifest of a bundle, as far as it is used. -/
structure BundleManifestFile where
  policyVersion : ℕ
  policyId : String

/-- A file of the directory, and what reading it gives. -/
structure RuleFile where
  name : String
  source : Except String String

/-- A directory as `load` finds it. A name that is not text has no `fileName`. -/
structure BundleDirectory where
  fileName : Option String
  manifest : Except String String
  entries : Except String (List RuleFile)

/-- The compiler of the rules. A source is added after the ones before it. -/
structure RuleCompiler where
  addSource : List String → String → Except String Unit
  build : List String → Scanner
  elapsed : List String → ℕ

/-- Largest rule bundle that will be compiled. -/
def maxBundleBytes : ℕ := 256 * 1024
/-- Largest number of rule files in one bundle. -/
def maxBundleFiles : ℕ := 64
/-- Wall clock allowed for compiling a bundle. -/
def compileBudget : ℕ := 10 * 1000000000

/-- `Path::extension`: what follows the last dot, unless the name begins with it. -/
def extension (name : String) : Option String :=
  match name.toList.reverse.dropWhile (· != '.') with
  | [] | [_] => none
  | _ => some (String.ofList (name.toList.reverse.takeWhile (· != '.')).reverse)

/-- The rules of a source, counted by the lines that begin with their keyword. -/
def countRules (source : String) : ℕ :=
  ((source.toList.tails.filter ("\nrule ".toList.isPrefixOf ·)).length) +
    (if "rule ".toList.isPrefixOf source.toList then 1 else 0)

/-- One turn of the loop that reads the rule files. -/
def readSource (state : ℕ × List String) (file : RuleFile) :
    Except ContractError (ℕ × List String) := do
  let source ← file.source.mapError (fun error => ⟨s!"rule file is unreadable: {error}"⟩)
  let total := state.1 + len source
  refuseIf (total > maxBundleBytes) "rule bundle is too large to compile"
  return (total,state.2 ++ [source])

/-- One turn of the loop that compiles the sources. -/
def addRules (compiler : RuleCompiler) (state : List String × ℕ) (source : String) :
    Except ContractError (List String × ℕ) := do
  (compiler.addSource state.1 source).mapError
    (fun error => ⟨s!"rule bundle does not compile: {error}"⟩)
  return (state.1 ++ [source],state.2 + countRules source)

/-- Compile the bundle in `directory`. -/
def RuleBundle.load (parseManifest : String → Except String BundleManifestFile)
    (compiler : RuleCompiler) (sha256Hex : Bytes → String) (directory : BundleDirectory) :
    Except ContractError RuleBundle := do
  let policyId ← directory.fileName.elim (.error ⟨"rule bundle directory has no name"⟩) .ok
  let text ← directory.manifest.mapError
    (fun error => ⟨s!"rule bundle manifest is unreadable: {error}"⟩)
  let manifest ← (parseManifest text).mapError
    (fun error => ⟨s!"rule bundle manifest is not valid: {error}"⟩)
  refuseIf (manifest.policyVersion ≠ 1) "unsupported rule bundle version"
  refuseIf (manifest.policyId ≠ policyId) "rule bundle manifest names a different policy"
  let found ← directory.entries.mapError (fun error => ⟨s!"rule bundle is unreadable: {error}"⟩)
  let entries := (found.filter (fun file => extension file.name == some "yar")).mergeSort
    (fun a b => decide (a.name ≤ b.name))
  refuseIf entries.isEmpty "rule bundle contains no rules"
  refuseIf (entries.length > maxBundleFiles) "rule bundle has too many files"
  let (_,sources) ← entries.foldlM readSource (0,[])
  let (_,ruleCount) ← sources.foldlM (addRules compiler) ([],0)
  refuseIf (compiler.elapsed sources > compileBudget) "rule bundle took too long to compile"
  return ⟨policyId,sha256Hex (sources.flatMap asBytes),ruleCount,compiler.build sources⟩

/-- A bundle is the policy that its directory names. -/
theorem load_policyId {parseManifest : String → Except String BundleManifestFile}
    {compiler : RuleCompiler} {sha256Hex : Bytes → String} {directory : BundleDirectory}
    {bundle : RuleBundle}
    (h : RuleBundle.load parseManifest compiler sha256Hex directory = .ok bundle) :
    directory.fileName = some bundle.policyId := by
  unfold RuleBundle.load at h
  obtain ⟨policyId,hname,h⟩ := bind_eq_ok.mp h
  obtain ⟨_,_,h⟩ := bind_eq_ok.mp h
  obtain ⟨_,_,h⟩ := bind_eq_ok.mp h
  obtain ⟨_,_,h⟩ := bind_eq_ok.mp h
  obtain ⟨_,_,h⟩ := bind_eq_ok.mp h
  obtain ⟨_,_,h⟩ := bind_eq_ok.mp h
  obtain ⟨_,_,h⟩ := bind_eq_ok.mp h
  obtain ⟨_,_,h⟩ := bind_eq_ok.mp h
  obtain ⟨_,_,h⟩ := bind_eq_ok.mp h
  obtain ⟨_,_,h⟩ := bind_eq_ok.mp h
  obtain ⟨_,_,h⟩ := bind_eq_ok.mp h
  obtain rfl := Except.ok.inj h
  cases hfile : directory.fileName with
  | none => rw [hfile] at hname; cases hname
  | some name =>
    rw [hfile] at hname
    rw [Except.ok.inj hname]

end HearthAI.Inspect
