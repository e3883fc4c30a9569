import SmoFramework.Genesis.RecoveryPackage
import SmoFramework.Governance.Engine

/-! Recovery sessions (`core/genesis/recovery_engine`). The file system and the function that
opens an envelope are parameters, and so are the two random words of a session id. -/
namespace SmoFramework.Genesis
open Governance Library.Numeral RecoveryPackage

inductive RecoveryMode
  | none | soft | hard
  deriving DecidableEq, Repr

inductive RecoveryState
  | inactive | awaitingRoot | signing | inProgress | complete | failed
  deriving DecidableEq, Repr

structure RecoverySession where
  mode : RecoveryMode := .none
  state : RecoveryState := .inactive
  sessionId : Bytes := []
  meshId : Bytes := []
  rootNodeId : Bytes := []
  newEpoch : UInt64 := 0
  createdAt : Int64 := 0
  expiresAt : Int64 := 0
  signatures : List GovernanceSignature := []
  deriving DecidableEq

variable (s : RecoverySession)

/-- An expiry time of zero means that the session does not expire. -/
def RecoverySession.isValid (now : Int64) : Bool :=
  s.state ≠ .inactive && s.state ≠ .failed && s.state ≠ .complete &&
    (s.expiresAt = 0 || now ≤ s.expiresAt)

structure RecoveryConfig where
  sessionTtlNs : UInt64 := 3600*1000000000
  recoveryPkgPath : String := ""

namespace RecoveryEngine

/-! Starting a session. -/

section
variable (config : RecoveryConfig) (files : String → Option Bytes)
  (openEnvelope : Bytes → Bytes → Bytes → Result Bytes)

/-- No result where reading the package has none. -/
def verifyRecoveryPackage (passphrase : Bytes) : Option (Result Bool) :=
  if config.recoveryPkgPath = "" then
    some (.error (smoErrRecovery 1503 .error .noRetry .manualIntervention
      "recovery package path not configured"))
  else match files config.recoveryPkgPath with
    | none => some (.error (smoErrRecovery 1503 .error .noRetry .manualIntervention
        ("recovery package not found: " ++ config.recoveryPkgPath)))
    | some json =>
      if json = [] then
        some (.error (smoErrRecovery 1503 .error .noRetry .manualIntervention
          "recovery package file is empty"))
      else (RecoveryPackage.deserialize json).map fun
        | .error e => .error (smoErrRecovery 1503 .error .noRetry .manualIntervention
            ("recovery package deserialization failed: " ++ e.message))
        | .ok pkg => .ok (pkg.verifyPassphrase openEnvelope passphrase)

/-- `generate_session_id`, from the two words it draws. -/
def generateSessionId (draw : UInt64 × UInt64) : Bytes :=
  text "SMO-REC-" ++ (render 16 draw.1.toNat ++ render 16 draw.2.toNat)

/-- The common body of `start_soft` and `start_hard`. The result of the check is only asked
whether it holds a value. -/
def start (mode : RecoveryMode) (meshId rootNodeId : Bytes) (currentEpoch : UInt64)
    (passphrase : Bytes) (now : Int64) (draw : UInt64 × UInt64) : Option (Result RecoverySession) :=
  (verifyRecoveryPackage config files openEnvelope passphrase).map fun pkgValid =>
    if pkgValid.isOk = false then
      .error (smoErrRecovery 1503 .error .noRetry .manualIntervention
        "recovery package passphrase mismatch")
    else .ok {
      mode
      state := .awaitingRoot
      sessionId := generateSessionId draw
      meshId
      rootNodeId
      newEpoch := currentEpoch+1
      createdAt := now
      expiresAt := now+config.sessionTtlNs.toInt64 }

def startSoft := start config files openEnvelope .soft
def startHard := start config files openEnvelope .hard

end

/-! Working on a session. -/

def addSignature (sig : GovernanceSignature) (now : Int64) : Result Unit × RecoverySession :=
  if s.isValid now = false then
    (.error (smoErrRecovery 1501 .warn .noRetry .manualIntervention "recovery session expired"),
      { s with state := .failed })
  else if s.state ≠ .awaitingRoot ∧ s.state ≠ .signing then
    (.error (smoErrRecovery 1502 .error .noRetry .manualIntervention
      "session not in signable state"),s)
  else (.ok (),{ s with signatures := s.signatures ++ [sig], state := .signing })

/-- Both modes end in the same assignment. -/
def execute (now : Int64) : Result Unit × RecoverySession :=
  if s.isValid now = false then
    (.error (smoErrRecovery 1501 .warn .noRetry .manualIntervention "recovery session expired"),
      { s with state := .failed })
  else if s.state ≠ .signing ∧ s.state ≠ .awaitingRoot then
    (.error (smoErrRecovery 1502 .error .noRetry .manualIntervention
      "session not ready for execution"),s)
  else if s.mode = .hard then (.ok (),{ s with state := .complete })
  else (.ok (),{ s with state := .complete })

def cancel : Result Unit × RecoverySession :=
  (.ok (),{ s with state := .failed })

/-! Who gets a session. -/

section
variable {config : RecoveryConfig} {files : String → Option Bytes}
  {openEnvelope : Bytes → Bytes → Bytes → Result Bytes} {passphrase : Bytes}

/-- A readable package is configured that the passphrase does not open. -/
def WrongPassphrase (config : RecoveryConfig) (files : String → Option Bytes)
    (openEnvelope : Bytes → Bytes → Bytes → Result Bytes) (passphrase : Bytes) : Prop :=
  ∃ json pkg, config.recoveryPkgPath ≠ "" ∧ files config.recoveryPkgPath = some json ∧ json ≠ [] ∧
    RecoveryPackage.deserialize json = some (.ok pkg) ∧
    pkg.verifyPassphrase openEnvelope passphrase = false

lemma verifyRecoveryPackage_false_iff :
    verifyRecoveryPackage config files openEnvelope passphrase = some (.ok false) ↔
      WrongPassphrase config files openEnvelope passphrase := by
  unfold verifyRecoveryPackage WrongPassphrase
  split_ifs with hpath
  · simp [hpath]
  · cases hfile : files config.recoveryPkgPath with
    | none => simp
    | some json =>
      by_cases hempty : json = []
      · simp [hempty]
      · simp only [hempty,if_false,Option.map_eq_some_iff]
        constructor
        · rintro ⟨e | pkg,hpkg,h⟩
          · cases h
          · exact ⟨json,pkg,hpath,rfl,hempty,hpkg,Except.ok.inj h⟩
        · rintro ⟨_,pkg,-,hjson,-,hpkg,h⟩
          cases hjson
          exact ⟨_,hpkg,congrArg Except.ok h⟩

lemma start_ok_iff {meshId rootNodeId : Bytes} :
    (∃ s, start config files openEnvelope mode meshId rootNodeId currentEpoch passphrase now draw =
      some (.ok s)) ↔
      ∃ b, verifyRecoveryPackage config files openEnvelope passphrase = some (.ok b) := by
  unfold start
  cases verifyRecoveryPackage config files openEnvelope passphrase with
  | none => simp
  | some r => cases r <;> simp [Except.toBool]

end

/-- `start_soft` and `start_hard` return a session only for a passphrase that the check found
right, exactly when no package is configured that this passphrase fails to open. -/
theorem start_verified_iff (config : RecoveryConfig) (files : String → Option Bytes)
    (openEnvelope : Bytes → Bytes → Bytes → Result Bytes) (meshId rootNodeId : Bytes)
    (currentEpoch : UInt64) (passphrase : Bytes) (now : Int64) (draw : UInt64 × UInt64) : (∀ s,
      startSoft config files openEnvelope meshId rootNodeId currentEpoch passphrase now draw =
          some (.ok s) ∨
        startHard config files openEnvelope meshId rootNodeId currentEpoch passphrase now draw =
          some (.ok s) →
      verifyRecoveryPackage config files openEnvelope passphrase = some (.ok true)) ↔
    ¬WrongPassphrase config files openEnvelope passphrase := by
  rw [← verifyRecoveryPackage_false_iff]
  constructor
  · intro h hfalse
    obtain ⟨s,hs⟩ := start_ok_iff.mpr ⟨false,hfalse⟩
    have htrue := h s (Or.inl hs)
    rw [hfalse] at htrue
    cases htrue
  · rintro hno s (hs | hs)
    all_goals
      obtain ⟨b,hb⟩ := start_ok_iff.mp ⟨s,hs⟩
      cases b with
      | true => exact hb
      | false => exact absurd hb hno

/-- The package is there, nothing opens its envelope, and the session starts all the same. -/
theorem start_wrong_passphrase : ∃ (config : RecoveryConfig) (files : String → Option Bytes)
    (openEnvelope : Bytes → Bytes → Bytes → Result Bytes) (s : RecoverySession),
    startSoft config files openEnvelope (text "mesh-1") (text "root-node") 1 (text "guess") 0 (1,2) =
      some (.ok s) ∧
    verifyRecoveryPackage config files openEnvelope (text "guess") = some (.ok false) := by
  have hpkg : deserialize samplePackage.jsonText =
      some (.ok samplePackage) := by decide +kernel
  have hfalse : verifyRecoveryPackage ⟨3600,"recovery.json"⟩
      (fun _ => some samplePackage.jsonText)
      (fun _ _ _ => .error (smoErrCrypto 153 .error .noRetry .manualIntervention
        "recovery open failed: AES-256-GCM: decryption failed (tag mismatch)"))
      (text "guess") = some (.ok false) :=
    verifyRecoveryPackage_false_iff.mpr
      ⟨_,_,by decide,rfl,by decide +kernel,hpkg,by decide +kernel⟩
  obtain ⟨s,hs⟩ := start_ok_iff.mpr ⟨false,hfalse⟩
  exact ⟨_,_,_,s,hs,hfalse⟩

end RecoveryEngine

end SmoFramework.Genesis
