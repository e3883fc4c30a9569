import Mathlib.Data.Vector.Basic
import SmoFramework.Errors
import SmoFramework.Library.AssocMap
import SmoFramework.Library.BigEndian

/-! Governance proposals and the engine that collects signatures for them (`core/governance`).
The resolver of authority keys and the signature check are parameters. -/
namespace SmoFramework.Governance
open SmoFramework.Library SmoFramework.Library.BigEndian

inductive GovernanceTier
  | membership | constitution | unanimous
  deriving DecidableEq, Repr

def GovernanceTier.toByte : GovernanceTier → UInt8
  | .membership => 0
  | .constitution => 1
  | .unanimous => 2

/-- `enum class GovernanceLevel : uint8_t`; a caller can pass any byte. -/
structure GovernanceLevel where
  val : UInt8
  deriving DecidableEq, Repr

def GovernanceLevel.authority : GovernanceLevel := ⟨1⟩
def GovernanceLevel.genesis : GovernanceLevel := ⟨4⟩

/-- `enum class GovernanceAction : uint8_t`; a caller can pass any byte. -/
structure GovernanceAction where
  val : UInt8
  deriving DecidableEq, Repr

namespace GovernanceAction
def addAuthority : GovernanceAction := ⟨0⟩
def removeAuthority : GovernanceAction := ⟨1⟩
def suspendAuthority : GovernanceAction := ⟨2⟩
def resumeAuthority : GovernanceAction := ⟨3⟩
def changeMaximum : GovernanceAction := ⟨4⟩
def changeMinimum : GovernanceAction := ⟨5⟩
def changeQuorum : GovernanceAction := ⟨6⟩
def changePolicy : GovernanceAction := ⟨7⟩
def updateManifest : GovernanceAction := ⟨8⟩
def upgradeRuntime : GovernanceAction := ⟨9⟩
def changeCipherSuite : GovernanceAction := ⟨10⟩
def changeGovernanceRules : GovernanceAction := ⟨11⟩
def destroyMesh : GovernanceAction := ⟨12⟩
def changeRecovery : GovernanceAction := ⟨13⟩
def certificateRevocation : GovernanceAction := ⟨14⟩
def epochIncrement : GovernanceAction := ⟨15⟩
def emergencyLockdown : GovernanceAction := ⟨16⟩
end GovernanceAction

variable (a : GovernanceAction)

open GovernanceAction in
def actionToTier : GovernanceTier :=
  if a ∈ [addAuthority,removeAuthority,suspendAuthority,resumeAuthority] then .membership
  else if a ∈ [changeMaximum,changeMinimum,changeQuorum,changePolicy,updateManifest,upgradeRuntime,
      certificateRevocation] then .constitution
  else if a ∈ [changeCipherSuite,changeGovernanceRules,destroyMesh,changeRecovery] then .unanimous
  else if a = epochIncrement then .constitution
  else if a = emergencyLockdown then .membership
  else .constitution

def defaultQuorum (totalAuthorities : Int32) : Int32 :=
  if totalAuthorities < 1 then 1
  else match actionToTier a with
    | .unanimous => totalAuthorities
    | .constitution => max 1 ((3*totalAuthorities+3)/4)
    | .membership => max 1 ((2*totalAuthorities+2)/3)

inductive ProposalState
  | draft | signing | committed | rejected | expired | conflicted
  deriving DecidableEq, Repr

def ProposalState.toByte : ProposalState → UInt8
  | .draft => 0
  | .signing => 1
  | .committed => 2
  | .rejected => 3
  | .expired => 4
  | .conflicted => 5

abbrev NodeID := List.Vector UInt8 32

structure GovernanceSignature where
  authorityId : NodeID
  signature : Bytes
  signedAt : Int64 := 0
  deriving DecidableEq

/-- `write_u32` of a size keeps its low four bytes. -/
def GovernanceSignature.serialize (s : GovernanceSignature) : Bytes :=
  s.authorityId.toList ++ toBE 4 s.signature.length ++ s.signature ++ write64 s.signedAt.toUInt64

structure GovernanceProposal where
  id : UInt64 := 0
  tier : GovernanceTier := .membership
  level : GovernanceLevel := .authority
  action : GovernanceAction := .addAuthority
  payload : Bytes := []
  createdAt : Int64 := 0
  expiresAt : Int64 := 0
  state : ProposalState := .draft
  threshold : Int32 := 1
  signatures : List GovernanceSignature := []
  deriving DecidableEq

namespace GovernanceProposal

variable (p : GovernanceProposal)

def thresholdMet : Bool := Int32.ofNat p.signatures.length ≥ p.threshold

def isExpired (now : Int64) : Bool := p.expiresAt > 0 ∧ now ≥ p.expiresAt

def serialize : Bytes :=
  write64 p.id ++ [p.tier.toByte,p.level.val,p.action.val,p.state.toByte] ++
    toBE 4 p.payload.length ++ p.payload ++ write64 p.createdAt.toUInt64 ++
    write64 p.expiresAt.toUInt64 ++ [p.threshold.toUInt32.toUInt8] ++
    toBE 4 p.signatures.length ++
    p.signatures.flatMap (fun s => toBE 4 s.serialize.length ++ s.serialize)

end GovernanceProposal

/-- What the engine is configured with; `none` is an empty `std::function` or a missing suite. -/
structure Environment where
  resolver : Option (NodeID → Result Bytes)
  /-- Content, signature and public key. -/
  verify : Option (Bytes → Bytes → Bytes → Result Bool)

structure GovernanceEngine where
  proposals : AssocMap UInt64 GovernanceProposal := AssocMap.empty
  nextId : UInt64 := 1

namespace GovernanceEngine

def stored (pid : UInt64) (proposal : GovernanceProposal) : GovernanceProposal :=
  let tier := actionToTier proposal.action
  let ttl : Int64 := if tier = .membership then 86400000000000 else 172800000000000
  { proposal with
    id := pid
    tier := tier
    state := .signing
    expiresAt := if proposal.expiresAt = 0 then proposal.createdAt+ttl else proposal.expiresAt
    threshold := defaultQuorum proposal.action 3 }

variable (e : GovernanceEngine)

def submit (proposal : GovernanceProposal) : Result UInt64 × GovernanceEngine :=
  if proposal.level.val > GovernanceLevel.genesis.val then
    (.error (smoErrGovernance 811 .error .noRetry .none "invalid governance level"),e)
  else if proposal.payload.isEmpty then
    (.error (smoErrGovernance 810 .error .noRetry .none "proposal payload cannot be empty"),e)
  else
    (.ok e.nextId,{
      proposals := e.proposals.insert e.nextId (stored e.nextId proposal)
      nextId := e.nextId+1 })

variable (id : UInt64) (p : GovernanceProposal)

def put : GovernanceEngine :=
  { e with proposals := e.proposals.insert id p }

/-- The bytes a vote signs: the proposal without its signatures. -/
def votePayload : Bytes := { p with signatures := [] }.serialize

variable (env : Environment)

def sign (e : GovernanceEngine) (id : UInt64) (authority : NodeID)
    (signature : Bytes) (now : Int64) : Result Unit × GovernanceEngine :=
  match e.proposals.find id with
  | none => (.error (smoErrGovernance 800 .error .noRetry .governanceVote "proposal not found"),e)
  | some prop =>
    if prop.state ≠ .signing then
      (.error (smoErrGovernance 810 .error .noRetry .none "proposal is not in Signing state"),e)
    else if prop.isExpired now then
      (.error (smoErrGovernance 810 .error .noRetry .none "proposal has expired"),
        e.put id { prop with state := .expired })
    else if prop.signatures.any (fun s => s.authorityId = authority) then
      (.error (smoErrGovernance 800 .error .noRetry .governanceVote "authority already signed"),e)
    else match env.resolver with
      | none => (.error (smoErrGovernance 800 .error .noRetry .governanceVote
          "no authority resolver configured"),e)
      | some resolver => match resolver authority with
        | .error err => (.error (smoErrGovernance 800 .error .noRetry .governanceVote
            ("authority not found: " ++ err.message)),e)
        | .ok pubkey => match env.verify with
          | none => (.error (smoErrGovernance 800 .error .noRetry .governanceVote
              "Suite 1 (Classical) not registered"),e)
          | some verify => match verify (votePayload prop) signature pubkey with
            | .error err => (.error err,e)
            | .ok false => (.error (smoErrGovernance 800 .error .noRetry .governanceVote
                "vote signature verification failed"),e)
            | .ok true => (.ok (),e.put id { prop with
                signatures := prop.signatures ++ [⟨authority,signature,now⟩] })

def commit (now : Int64) : Result Unit × GovernanceEngine :=
  match e.proposals.find id with
  | none => (.error (smoErrGovernance 800 .error .noRetry .governanceVote "proposal not found"),e)
  | some prop =>
    if prop.state ≠ .signing then
      (.error (smoErrGovernance 810 .error .noRetry .none "proposal is not in Signing state"),e)
    else if prop.isExpired now then
      (.error (smoErrGovernance 810 .error .noRetry .none "proposal has expired"),
        e.put id { prop with state := .expired })
    else if !prop.thresholdMet then
      (.error (smoErrGovernance 803 .warn .noRetry .governanceVote "signature threshold not met"),e)
    else (.ok (),e.put id { prop with state := .committed })

/-- Any proposal can be rejected, in whatever state it is. -/
def reject : Result Unit × GovernanceEngine :=
  match e.proposals.find id with
  | none => (.error (smoErrGovernance 800 .error .noRetry .governanceVote "proposal not found"),e)
  | some prop => (.ok (),e.put id { prop with state := .rejected })

def tick (now : Int64) : GovernanceEngine :=
  { e with proposals := e.proposals.mapValues (fun prop =>
      if prop.state = .signing ∧ prop.isExpired now then { prop with state := .expired } else prop) }

inductive Op
  | submit (proposal : GovernanceProposal)
  | sign (id : UInt64) (authority : NodeID) (signature : Bytes) (now : Int64)
  | commit (id : UInt64) (now : Int64)
  | reject (id : UInt64)
  | tick (now : Int64)

def apply (e : GovernanceEngine) : Op → GovernanceEngine
  | .submit proposal => (e.submit proposal).2
  | .sign id authority signature now => (e.sign env id authority signature now).2
  | .commit id now => (e.commit id now).2
  | .reject id => (e.reject id).2
  | .tick now => e.tick now

def run (ops : List Op) : GovernanceEngine := ops.foldl (apply env) {}

end GovernanceEngine
end SmoFramework.Governance
