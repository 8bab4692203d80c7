import HearthAI.Core.Effect
import HearthAI.Contracts.Text
import HearthAI.Contracts.Limits

/-! # The detector: a scanner behind three outcomes

The engine is an arbitrary oracle: the answer to a scan may depend on the input
and on how many scans came before it.
-/
namespace HearthAI.Inspect
open Text Contracts

/-- What one scan concluded. -/
inductive Verdict
  | noMatch
  /-- The identifiers that matched. -/
  | «match» (rules : List String)
  deriving DecidableEq, Repr

/-- The inspection could not be completed. -/
structure InspectionFailure where
  reason : String
  deriving DecidableEq, Repr

/-- The scanner's answer to its `n`-th input: the matching rules, or an error or timeout. -/
abbrev Scanner := ℕ → Bytes → Except Unit (List String)

/-- A compiled, immutable rule bundle. -/
structure RuleBundle where
  policyId : String
  policyDigest : String
  ruleCount : ℕ
  rules : Scanner

/-- A scanner plus this response's total scan budget. -/
structure Detector where
  scanner : Scanner
  remainingBytes : ℕ
  scans : ℕ

def RuleBundle.detector (bundle : RuleBundle) : Detector :=
  ⟨bundle.rules,maxScanInputBytes,0⟩

/-- Scan one input. An exhausted budget is a failure, never a shorter scan. -/
def Detector.scan (data : Bytes) : Effect InspectionFailure Detector Verdict := fun detector =>
  if detector.remainingBytes < data.length then
    (.error ⟨"scan input budget exhausted"⟩,detector)
  else
    let spent : Detector :=
      ⟨detector.scanner,detector.remainingBytes - data.length,detector.scans + 1⟩
    match detector.scanner detector.scans data with
    | .error _ => (.error ⟨"scanner error or timeout"⟩,spent)
    | .ok rules =>
      let matched := rules.take maxScanMatches
      if matched.isEmpty then (.ok .noMatch,spent) else (.ok (.match matched),spent)

/-- The detector after one of its inputs. -/
def Detector.spent (data : Bytes) (detector : Detector) : Detector :=
  ⟨detector.scanner,detector.remainingBytes - data.length,detector.scans + 1⟩

section
variable {data : Bytes} {d d' : Detector}

/-- Within the budget the answer is the one of the scanner. -/
theorem Detector.scan_eq (hroom : data.length ≤ d.remainingBytes) :
    Detector.scan data d = match d.scanner d.scans data with
      | .error _ => (.error ⟨"scanner error or timeout"⟩,d.spent data)
      | .ok rules => if rules = [] then (.ok .noMatch,d.spent data)
          else (.ok (.match (rules.take maxScanMatches)),d.spent data) := by
  unfold Detector.scan
  rw [if_neg (Nat.not_lt.mpr hroom)]
  dsimp only
  cases d.scanner d.scans data with
  | error failure => rfl
  | ok rules => cases rules <;> rfl

/-- Nothing matches exactly when the scanner says so of an input that the budget has room for. -/
theorem Detector.scan_eq_noMatch : Detector.scan data d = (.ok .noMatch,d') ↔
    data.length ≤ d.remainingBytes ∧ d.scanner d.scans data = .ok [] ∧ d' = d.spent data := by
  by_cases hroom : data.length ≤ d.remainingBytes
  · rw [Detector.scan_eq hroom]
    match hanswer : d.scanner d.scans data with
    | .error failure => simp
    | .ok [] => simp [hroom,eq_comm]
    | .ok (rule :: rules) => simp
  · unfold Detector.scan
    rw [if_pos (Nat.not_le.mp hroom)]
    simp [hroom]

theorem Detector.scan_clean : (Detector.scan data d).1 = .ok .noMatch ↔
    data.length ≤ d.remainingBytes ∧ d.scanner d.scans data = .ok [] := by
  constructor
  · intro h
    obtain ⟨hroom,hanswer,_⟩ := Detector.scan_eq_noMatch.mp (Prod.ext h rfl)
    exact ⟨hroom,hanswer⟩
  · rintro ⟨hroom,hanswer⟩
    rw [Detector.scan_eq_noMatch.mpr ⟨hroom,hanswer,rfl⟩]

/-- A clean scan spends exactly its input. -/
theorem Detector.scan_noMatch (h : Detector.scan data d = (.ok .noMatch,d')) :
    d'.remainingBytes + data.length = d.remainingBytes := by
  obtain ⟨hroom,_,rfl⟩ := Detector.scan_eq_noMatch.mp h
  exact Nat.sub_add_cancel hroom

end
end HearthAI.Inspect
