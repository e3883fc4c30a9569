import Mathlib.Data.Nat.Notation

/-! Bytes, errors and results shared by every component (`core/types`, `core/errors/error`).
An error keeps everything a caller can branch on: its code, its classification and its text.
Source positions and creation times are left out, since nothing reads them back. -/
namespace SmoFramework

/-- `std::vector<uint8_t>`, `std::span<const uint8_t>` and the contents of `std::string`. -/
abbrev Bytes := List UInt8

inductive Severity
  | debug | info | warn | error | critical | alert
  deriving DecidableEq, Repr

inductive RetryClass
  | noRetry | retrySafe | retryBackoff | retryNever
  deriving DecidableEq, Repr

inductive Recovery
  | none | retryOperation | reconnect | reenroll | restartFSM | rebootNode | governanceVote
  | manualIntervention
  deriving DecidableEq, Repr

inductive ErrorCategory
  | crypto | identity | certificate | transport | discovery | session | protocol | runtime
  | governance | storage | internal | compiler | trust | contract | genesis | recovery
  | bootstrap | sync | federation | serialization
  deriving DecidableEq, Repr

structure ErrorCode where
  category : ErrorCategory
  code : ℕ
  severity : Severity
  retry : RetryClass
  recovery : Recovery
  deriving DecidableEq, Repr

structure Error where
  code : ErrorCode
  message : String
  deriving DecidableEq, Repr

abbrev Result (α : Type*) := Except Error α

/-- The `SMO_ERR` macro; the numeric code is a ten-bit field. -/
def smoErr (category : ErrorCategory) (code : ℕ) (severity : Severity) (retry : RetryClass)
    (recovery : Recovery) (message : String) : Error :=
  ⟨⟨category,code % 1024,severity,retry,recovery⟩,message⟩

def smoErrCrypto := smoErr .crypto
def smoErrProtocol := smoErr .protocol
def smoErrGovernance := smoErr .governance
def smoErrGenesis := smoErr .genesis
def smoErrRecovery := smoErr .recovery
def smoErrSession := smoErr .session
def smoErrTransport := smoErr .transport
def smoErrCert := smoErr .certificate
def smoErrCompiler := smoErr .compiler
def smoErrTrust := smoErr .trust
def smoErrDiscovery := smoErr .discovery
def smoErrStorage := smoErr .storage

def literal (s : String) : Bytes := s.toUTF8.data.toList

/-- A `std::string` inside an error text, one character for every byte. -/
def shown (s : Bytes) : String := String.ofList (s.map fun b => Char.ofNat b.toNat)

theorem bind_eq_ok {ε α β : Type} {x : Except ε α} {f : α → Except ε β} {b : β} :
    (x >>= f) = .ok b ↔ ∃ a, x = .ok a ∧ f a = .ok b := by
  cases x with
  | error e => simp [bind,Except.bind]
  | ok a => simp [bind,Except.bind]

/-- A check that returns an error has passed when the function succeeds. -/
theorem ite_error_eq_ok {α : Type*} {c : Prop} [Decidable c] {e : Error} {x : Result α} {a : α} :
    (if c then .error e else x) = .ok a ↔ ¬c ∧ x = .ok a := by
  by_cases h : c
  · rw [if_pos h]
    exact ⟨fun h' => (by cases h'),fun h' => absurd h h'.1⟩
  · rw [if_neg h]
    exact ⟨fun h' => ⟨h,h'⟩,fun h' => h'.2⟩

theorem ite_error_pair_eq_ok {α σ : Type*} {c : Prop} [Decidable c] {e : Error} {s t : σ}
    {x : Result α × σ} {a : α} :
    (if c then (.error e,s) else x) = (.ok a,t) ↔ ¬c ∧ x = (.ok a,t) := by
  by_cases h : c
  · rw [if_pos h]
    exact ⟨fun h' => (by cases h'),fun h' => absurd h h'.1⟩
  · rw [if_neg h]
    exact ⟨fun h' => ⟨h,h'⟩,fun h' => h'.2⟩

end SmoFramework
