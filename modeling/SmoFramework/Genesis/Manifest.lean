import SmoFramework.Genesis.Json

/-! The genesis manifest and its text form (`core/genesis/genesis_manifest`). -/
namespace SmoFramework.Genesis

inductive DeploymentProfile
  | personal | homeLab | startup | enterprise | airGapped | custom
  deriving DecidableEq, Repr

def DeploymentProfile.toText : DeploymentProfile → Bytes
  | .personal => text "personal"
  | .homeLab => text "homelab"
  | .startup => text "startup"
  | .enterprise => text "enterprise"
  | .airGapped => text "air-gapped"
  | .custom => text "custom"

structure AuthorityRange where
  minimum : UInt32 := 1
  preferred : UInt32 := 3
  maximum : UInt32 := 7

structure QuorumConfig where
  authorityCreate : Bytes := text "2/3"
  authorityRevoke : Bytes := text "3/4"
  policyUpdate : Bytes := text "2/3"
  emergencyLockdown : Bytes := text "1/3"
  epochRotate : Bytes := text "3/4"
  recovery : Bytes := text "1/2"

structure FaultTolerance where
  maxAuthorityFailures : UInt32 := 1
  maxCompromised : UInt32 := 0

structure GenesisManifest where
  schemaVersion : UInt32 := 1
  meshId : Bytes := []
  rootPublicKey : Bytes := []
  manifestSchema : UInt32 := 1
  manifestRevision : UInt32 := 1
  state : Bytes := text "genesis"
  meshState : Bytes := text "Draft"
  profile : DeploymentProfile := .enterprise
  authorities : AuthorityRange := {}
  quorum : QuorumConfig := {}
  faultTolerance : FaultTolerance := {}
  createdAt : UInt64 := 0
  wizardVersion : UInt32 := 1
  cipherSuiteId : UInt32 := 1

/-- `GenesisManifest::serialize`. Lines inside an object are indented by two more blanks. -/
def GenesisManifest.serialize (m : GenesisManifest) : Result Bytes :=
  .ok (List.flatten [
    text "\x7b\n",
    jsonLine ("schema_version",decimal m.schemaVersion.toNat),
    jsonLine ("mesh_id",jsonEsc m.meshId),
    jsonLine ("root_public_key",jsonEsc m.rootPublicKey),
    jsonLine ("manifest_schema",decimal m.manifestSchema.toNat),
    jsonLine ("manifest_revision",decimal m.manifestRevision.toNat),
    jsonLine ("state",jsonEsc m.state),
    jsonLine ("mesh_state",jsonEsc m.meshState),
    jsonLine ("profile",jsonEsc m.profile.toText),
    jsonField "authorities" (text "\x7b\n"),
    text "  ",jsonLine ("minimum",decimal m.authorities.minimum.toNat),
    text "  ",jsonLine ("preferred",decimal m.authorities.preferred.toNat),
    text "  ",jsonField "maximum" (decimal m.authorities.maximum.toNat),text "\n",
    text "  \x7d,\n",
    jsonField "quorum" (text "\x7b\n"),
    text "  ",jsonLine ("authority_create",jsonEsc m.quorum.authorityCreate),
    text "  ",jsonLine ("authority_revoke",jsonEsc m.quorum.authorityRevoke),
    text "  ",jsonLine ("policy_update",jsonEsc m.quorum.policyUpdate),
    text "  ",jsonLine ("emergency_lockdown",jsonEsc m.quorum.emergencyLockdown),
    text "  ",jsonLine ("epoch_rotate",jsonEsc m.quorum.epochRotate),
    text "  ",jsonField "recovery" (jsonEsc m.quorum.recovery),text "\n",
    text "  \x7d,\n",
    jsonField "fault_tolerance" (text "\x7b\n"),
    text "  ",jsonLine ("max_authority_failures",decimal m.faultTolerance.maxAuthorityFailures.toNat),
    text "  ",jsonField "max_compromised" (decimal m.faultTolerance.maxCompromised.toNat),text "\n",
    text "  \x7d,\n",
    jsonLine ("created_at",decimal m.createdAt.toNat),
    jsonLine ("wizard_version",decimal m.wizardVersion.toNat),
    jsonField "cipher_suite_id" (decimal m.cipherSuiteId.toNat),text "\n",
    text "\x7d\n"])

theorem GenesisManifest.not_plain_serialize {data : Bytes} {m : GenesisManifest}
    (h : m.serialize = .ok data) : ¬Plain data := by
  cases h
  have hkey : 34 ∈ text "  \"" := by decide +kernel
  intro hplain
  exact hplain.1 (by simp [jsonField,hkey])

end SmoFramework.Genesis
