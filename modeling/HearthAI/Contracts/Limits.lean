import HearthAI.Core.Fallible

/-! # Ceilings and the contract error

The constants are the starting ceilings of the design. Durations are counted in
nanoseconds.
-/
namespace HearthAI.Contracts

/-- A value does not conform to a public or stage wire contract. -/
structure ContractError where
  message : String
  deriving DecidableEq, Repr

/-- An early `return Err(..)`. -/
def refuseIf (c : Prop) [Decidable c] (message : String) : Except ContractError Unit :=
  if c then .error ⟨message⟩ else .ok ()

@[simp] theorem refuseIf_eq_ok {c : Prop} [Decidable c] {message : String} {u : Unit} :
    refuseIf c message = .ok u ↔ ¬c := by
  unfold refuseIf
  split <;> simp_all

/-- Redirect hops followed after the first request. -/
def maxRedirects : ℕ := 3
/-- Response header bytes accepted across all hops of one request. -/
def maxHeaderBytes : ℕ := 32 * 1024
/-- Wire bytes accepted for one body, before any content decoding. -/
def maxWireBytes : ℕ := 1024 * 1024
/-- Bytes accepted after content decoding. -/
def maxDecodedBytes : ℕ := 1024 * 1024
/-- Largest expansion a content encoding may produce. -/
def maxDecodeExpansion : ℕ := 64
/-- Bytes fed to the scanner across every required pass of one response. -/
def maxScanInputBytes : ℕ := 8 * 1024 * 1024
/-- Characters of converted content returned to the caller. -/
def maxContentChars : ℕ := 1024 * 1024
def fetchDeadline : ℕ := 15 * 1000000000
def inspectionDeadline : ℕ := 5 * 1000000000
def maxUrlChars : ℕ := 2048
def maxContentTypeChars : ℕ := 200
/-- Matches reported by the scanner for one input. -/
def maxScanMatches : ℕ := 32

end HearthAI.Contracts
